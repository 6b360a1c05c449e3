import ObjectProcessor.Service.Origins
import ObjectProcessor.Status.Verdict
import ObjectProcessor.Uploader.Initiate

/-!
# Joining callbacks to their uploads

A callback names its journey inside metadata its caller controls.  The stored
sessions decide whether it is believed: the identifier the callback is recorded
under is that of a session it matches, or a fresh one.
-/

namespace ObjectProcessor

open Library Schema

/-! ## The stored sessions -/

structure SessionsMinted (cfg : Config) (sessions : List Session) : Prop where
  minted : ∀ session ∈ sessions, ∃ journeyId, session.journeyId = some journeyId ∧
    isValidJourneyId cfg (some (.str journeyId)) = some journeyId
  metadata : ∀ session ∈ sessions, baseMetadataSchema cfg session.metadata = true
  uploads : UniqueBy Session.uploadId sessions
  journeys : UniqueBy Session.journeyId sessions

variable {cfg : Config} {system : System}

theorem sessionsMinted_initiate {sessions : List Session} {session : Session}
    (holds : SessionsMinted cfg sessions)
    (minted : (isValidJourneyId cfg (session.journeyId.map Json.str)).isSome = true)
    (valid : baseMetadataSchema cfg session.metadata = true)
    (new : ∀ stored ∈ sessions,
      stored.uploadId ≠ session.uploadId ∧ stored.journeyId ≠ session.journeyId) :
    SessionsMinted cfg (sessions ++ [session]) := by
  obtain ⟨journeyId, named⟩ := Option.isSome_iff_exists.mp minted
  have carries : session.journeyId = some journeyId := by
    obtain ⟨text, isText, same⟩ := Option.map_eq_some_iff.mp (isValidJourneyId_eq_some.mp named).1
    cases same
    exact isText
  rw [carries, Option.map_some] at named
  constructor
  · rw [List.forall_mem_append, List.forall_mem_singleton]
    exact ⟨holds.minted, journeyId, carries, named⟩
  · rw [List.forall_mem_append, List.forall_mem_singleton]
    exact ⟨holds.metadata, valid⟩
  · exact holds.uploads.append (List.nodup_singleton _)
      (List.forall_mem_singleton.mpr fun old stored => (new old stored).1)
  · exact holds.journeys.append (List.nodup_singleton _)
      (List.forall_mem_singleton.mpr fun old stored => (new old stored).2)

theorem Reachable.sessionsMinted (reachable : Reachable cfg system) :
    SessionsMinted cfg system.store.sessions := by
  have initial : SessionsMinted cfg System.initial.store.sessions :=
    ⟨by simp [System.initial], by simp [System.initial], List.nodup_nil, List.nodup_nil⟩
  refine Reaches.induction (motive := fun system => SessionsMinted cfg system.store.sessions)
    reachable initial fun before action after _ holds accepted => ?_
  cases edge_of_step accepted with
  | initiate named minted valid new => exact sessionsMinted_initiate holds minted valid new
  | callback past distinct fresh result effect =>
      clear result
      cases effect <;> exact holds
  | _ => exact holds

/-- An initiate request leaves the sessions alone, or stores one as an accepted step does. -/
theorem initiate_refines (settings : UploaderSettings) (env : InitiateEnv) (clientPayload : Json)
    (minted : isValidJourneyId cfg (some (.str env.journeyId)) = some env.journeyId) :
    (uploaderInitiate cfg settings env system.store.sessions clientPayload).2 =
        system.store.sessions ∨
      ∃ session next, system.step cfg (.initiate session) = some next ∧
        next.store.sessions =
          (uploaderInitiate cfg settings env system.store.sessions clientPayload).2 := by
  rcases uploaderInitiate_sessions cfg settings env system.store.sessions clientPayload with
    same | ⟨uploadId, metadata, found, valid, named, new, same⟩
  · exact Or.inl same
  · have accepted : system.initiate cfg
        (initiatedSession clientPayload uploadId env.journeyId env.now) = some { system with
          store := { system.store with sessions := system.store.sessions ++
            [initiatedSession clientPayload uploadId env.journeyId env.now] } } := by
      rw [System.initiate, if_pos]
      refine ⟨named, ?_, ?_, new⟩
      · simp [initiatedSession, minted]
      · simpa [initiatedSession, found] using valid
    exact Or.inr ⟨_, _, accepted, same.symm⟩

/-! ## The identifier of a callback -/

/-- The body names the journey of a session the lookup sees, with its business
identifiers. -/
def Joins (env : CallbackEnv) (sessions : List Session) (body : Json) (journeyId : String) :
    Prop :=
  metadataField body journeyIdKey = some (.str journeyId) ∧
    ∃ seen, env.sessionsSeen = some seen ∧ ∃ session ∈ sessions.take seen,
      session.journeyId = some journeyId ∧
      Json.strictEq (session.metadata.get? "sbi") (metadataField body "sbi") = true ∧
      Json.strictEq (session.metadata.get? "submissionId")
        (metadataField body "submissionId") = true

theorem requestPayload_metadata (cfg : Config) (body : Json) :
    (requestPayload cfg body).get? "metadata" = body.get? "metadata" := by
  unfold requestPayload
  split
  · exact validatedPayload_get? body (by decide)
  · rfl

theorem callbackCorrelationId_eq (cfg : Config) (env : CallbackEnv) (store : Store) (body : Json) :
    callbackCorrelationId cfg env store body =
      resolveJourneyId cfg (env.sessionsSeen.map store.sessions.take) env.generated
        (metadataField body journeyIdKey) (splitJourneyId (body.get? "metadata")).2 := by
  rw [callbackCorrelationId, resolveCallbackCorrelation, requestPayload_metadata,
    splitJourneyId_journey]
  rfl

/-- The business identifiers are compared as the body has them, whatever its shape. -/
theorem sessionMatches_iff (session : Session) (body : Json) :
    sessionMatches session (splitJourneyId (body.get? "metadata")).2 = true ↔
      Json.strictEq (session.metadata.get? "sbi") (metadataField body "sbi") = true ∧
        Json.strictEq (session.metadata.get? "submissionId")
          (metadataField body "submissionId") = true := by
  have sbi : (splitJourneyId (body.get? "metadata")).2.get? "sbi" = metadataField body "sbi" :=
    splitJourneyId_field _ (by decide)
      (ne_toString_of_not_digit 's' (by decide) (by decide)) (by decide)
  have submissionId : (splitJourneyId (body.get? "metadata")).2.get? "submissionId" =
      metadataField body "submissionId" :=
    splitJourneyId_field _ (by decide)
      (ne_toString_of_not_digit 's' (by decide) (by decide)) (by decide)
  rw [sessionMatches, sbi, submissionId, Bool.and_eq_true]

theorem callbackCorrelationId_eq_iff (holds : SessionsMinted cfg system.store.sessions)
    {env : CallbackEnv} {body : Json} {session : Session} {journeyId : String}
    (stored : session ∈ system.store.sessions) (carries : session.journeyId = some journeyId)
    (fresh : ∀ session ∈ system.store.sessions, session.journeyId ≠ some env.generated) :
    callbackCorrelationId cfg env system.store body = journeyId ↔
      Joins env system.store.sessions body journeyId := by
  obtain ⟨other, same, minted⟩ := holds.minted session stored
  rw [carries] at same
  cases same
  have apart : env.generated ≠ journeyId := fun same =>
    fresh session stored (carries.trans (congrArg some same.symm))
  rw [callbackCorrelationId_eq, resolveJourneyId_eq_iff minted apart, Joins]
  refine and_congr_right fun _ => ⟨?_, ?_⟩
  · rintro ⟨sessions, found, looked, isFound, agrees⟩
    obtain ⟨seen, looks, rfl⟩ := Option.map_eq_some_iff.mp looked
    exact ⟨seen, looks, found, List.mem_of_find?_eq_some isFound,
      by simpa using List.find?_some isFound, (sessionMatches_iff found body).mp agrees⟩
  · rintro ⟨seen, looks, found, isSeen, named, agrees⟩
    refine ⟨system.store.sessions.take seen, found, by rw [looks]; rfl, ?_,
      (sessionMatches_iff found body).mpr agrees⟩
    refine find?_eq_some_of_unique isSeen (by simpa using named) fun other isOther same => ?_
    have sameJourney : other.journeyId = some journeyId := by simpa using same
    exact holds.journeys.eq_of_key (List.mem_of_mem_take isOther) (List.mem_of_mem_take isSeen)
      (sameJourney.trans named.symm)

/-- The identifier is fresh when no stored journey is joined. -/
theorem callbackCorrelationId_eq_generated_iff (holds : SessionsMinted cfg system.store.sessions)
    {env : CallbackEnv} {body : Json}
    (fresh : ∀ session ∈ system.store.sessions, session.journeyId ≠ some env.generated) :
    callbackCorrelationId cfg env system.store body = env.generated ↔
      ∀ session ∈ system.store.sessions, ∀ journeyId, session.journeyId = some journeyId →
        ¬ Joins env system.store.sessions body journeyId := by
  constructor
  · intro isFresh session stored journeyId carries joins
    have isJourney := (callbackCorrelationId_eq_iff holds stored carries fresh).mpr joins
    rw [isFresh] at isJourney
    exact fresh session stored (carries.trans (congrArg some isJourney.symm))
  · intro unjoined
    have source := callbackCorrelationId_eq cfg env system.store body
    rcases resolveJourneyId_generated_or_stored with isFresh | ⟨sessions, looked, session, isSeen,
      carries⟩
    · exact source.trans isFresh
    · obtain ⟨seen, _, rfl⟩ := Option.map_eq_some_iff.mp looked
      rw [← source] at carries
      have stored := List.mem_of_mem_take isSeen
      exact absurd ((callbackCorrelationId_eq_iff holds stored carries fresh).mp rfl)
        (unjoined session stored _ carries)

/-- What a callback appends to the store is recorded under one identifier. -/
structure RecordedUnder (correlationId : String) (before after : Store) : Prop where
  sessions : after.sessions = before.sessions
  status : ∃ records, after.status = before.status ++ records ∧
    ∀ record ∈ records, record.correlationId = correlationId
  metadata : ∃ documents, after.metadata = before.metadata ++ documents ∧
    ∀ document ∈ documents, document.messaging.correlationId = correlationId
  outbox : ∃ entries, after.outbox = before.outbox ++ entries ∧
    ∀ entry ∈ entries, entry.payload.messaging.correlationId = correlationId

theorem CallbackEffect.recordedUnder {env : CallbackEnv} {store after : Store} {body : Json}
    (effect : CallbackEffect cfg env store body after) :
    RecordedUnder (callbackCorrelationId cfg env store body) store after := by
  have nothing {α : Type} (list : List α) (P : α → Prop) :
      ∃ added, list = list ++ added ∧ ∀ item ∈ added, P item :=
    ⟨[], (List.append_nil list).symm, by simp⟩
  cases effect with
  | unchanged => exact ⟨rfl, nothing _ _, nothing _ _, nothing _ _⟩
  | failed error written =>
      refine ⟨rfl, ⟨_, rfl, fun record member => ?_⟩, nothing _ _, nothing _ _⟩
      obtain ⟨fileId, _, rfl⟩ := List.mem_map.mp (List.mem_of_mem_take member)
      rfl
  | committed documents accepted =>
      have under : ∀ document ∈ documents, document.messaging.correlationId =
          callbackCorrelationId cfg env store body :=
        fun document member => (accepted.document member).2.2.1
      refine ⟨rfl, ⟨_, rfl, fun record member => ?_⟩, ⟨_, rfl, fun document member => ?_⟩,
        ⟨_, rfl, fun entry member => ?_⟩⟩
      · obtain ⟨document, listed, rfl⟩ := List.mem_map.mp member
        exact under document listed
      · exact under _ (inbound_of_mem_withIds member)
      · obtain ⟨document, listed, _, same⟩ := mem_createOutboxEntries member
        rw [same]
        exact under _ (inbound_of_mem_withIds listed)

/-! ## The echo of an initiate -/

section Echo

variable {env : CallbackEnv} {body : Json} {session : Session} {journeyId : String}

/-- The uploader has echoed the metadata it was sent for the session. -/
def Echoes (cfg : Config) (session : Session) (journeyId : String) (body : Json) : Prop :=
  ∃ settings clientPayload, clientPayload.get? "metadata" = some session.metadata ∧
    body.get? "metadata" =
      (buildCdpUploaderPayload cfg settings clientPayload journeyId).get? "metadata"

theorem Echoes.split (echoes : Echoes cfg session journeyId body)
    (valid : baseMetadataSchema cfg session.metadata = true) :
    splitJourneyId (body.get? "metadata") = (some (.str journeyId), session.metadata) := by
  obtain ⟨settings, clientPayload, sent, echoed⟩ := echoes
  rw [echoed, buildCdpUploaderPayload_metadata, sent]
  exact splitJourneyId_withJourneyId valid journeyId

/-- Texts and numbers are strictly equal to themselves, and the identifiers are such. -/
theorem sessionMatches_self {metadata : Json} (valid : baseMetadataSchema cfg metadata = true)
    {session : Session} (stored : session.metadata = metadata) :
    sessionMatches session metadata = true := by
  have sbi : (required (integer schemaConsts.SBI_MIN schemaConsts.SBI_MAX)).admits
      (metadata.get? "sbi") = true := object_key valid (by simp [baseMetadataKeys])
  have submissionId : (required anyString).admits (metadata.get? "submissionId") = true :=
    object_key valid (by simp [baseMetadataKeys])
  obtain ⟨value, hasSbi, isInteger⟩ := admits_required sbi
  obtain ⟨number, rfl, _⟩ := integer_eq_true isInteger
  obtain ⟨value, hasSubmissionId, isString⟩ := admits_required submissionId
  obtain ⟨text, rfl, _⟩ := string_eq_true isString
  simp [sessionMatches, stored, hasSbi, hasSubmissionId, Json.strictEq, Json.int]

theorem Echoes.joins (echoes : Echoes cfg session journeyId body)
    (valid : baseMetadataSchema cfg session.metadata = true)
    (carries : session.journeyId = some journeyId) {sessions : List Session} {seen : Nat}
    (looks : env.sessionsSeen = some seen) (isSeen : session ∈ sessions.take seen) :
    Joins env sessions body journeyId := by
  have split := echoes.split valid
  have named : metadataField body journeyIdKey = some (.str journeyId) := by
    rw [metadataField, ← splitJourneyId_journey, split]
  refine ⟨named, seen, looks, session, isSeen, carries, ?_⟩
  apply (sessionMatches_iff session body).mp
  rw [split]
  exact sessionMatches_self valid rfl

/-- The documents of an echoed callback carry the client's own metadata. -/
theorem Echoes.documents (echoes : Echoes cfg session journeyId body)
    (valid : baseMetadataSchema cfg session.metadata = true) {store after : Store}
    (effect : CallbackEffect cfg env store body after) {document : MetadataDocument}
    (member : document ∈ after.metadata) :
    document ∈ store.metadata ∨ document.metadata = session.metadata := by
  cases effect with
  | unchanged => exact Or.inl member
  | failed => exact Or.inl member
  | committed documents accepted =>
      refine (List.mem_append.mp member).imp_right fun fresh => ?_
      obtain ⟨file, _, _, _, _, same⟩ := accepted.file (inbound_of_mem_withIds fresh)
      have metadata := congrArg InboundDocument.metadata same
      rw [metadata]
      simp only [inboundDocument, handledPayload]
      rw [strippedPayload_metadata, requestPayload_metadata, echoes.split valid]
      rfl

end Echo

/-- The verdict of an upload is based on records of its journey. -/
theorem journeyOf_session (holds : SessionsMinted cfg system.store.sessions) {session : Session}
    {journeyId : String} (stored : session ∈ system.store.sessions)
    (carries : session.journeyId = some journeyId) :
    journeyOf system.store.sessions session.uploadId = some journeyId := by
  obtain ⟨other, same, minted⟩ := holds.minted session stored
  rw [carries] at same
  cases same
  have found : getSessionByUploadId system.store.sessions session.uploadId = some session := by
    refine find?_eq_some_of_unique stored (by simp) fun other isOther same => ?_
    exact holds.uploads.eq_of_key isOther stored (by simpa using same)
  rw [journeyOf, found, Option.bind_some, carries, Option.filter_some, if_pos]
  simpa using (isValidJourneyId_eq_some.mp minted).2.1

/-- A callback is recorded under the journey of a stored session exactly when it names
the journey and matches the session, and under a fresh identifier otherwise; an echoed
callback gives back the journey and the client's metadata. -/
theorem callback_joins_its_upload (reachable : Reachable cfg system) (env : CallbackEnv)
    (body : Json)
    (fresh : ∀ session ∈ system.store.sessions, session.journeyId ≠ some env.generated) :
    let correlationId := callbackCorrelationId cfg env system.store body
    let after := (uploadCallback cfg env system.store body).store
    RecordedUnder correlationId system.store after ∧
    (∀ session ∈ system.store.sessions, ∀ journeyId, session.journeyId = some journeyId →
      (correlationId = journeyId ↔ Joins env system.store.sessions body journeyId)) ∧
    (correlationId = env.generated ↔ ∀ session ∈ system.store.sessions,
      ∀ journeyId, session.journeyId = some journeyId →
        ¬ Joins env system.store.sessions body journeyId) ∧
    (∀ session ∈ system.store.sessions, ∀ journeyId, session.journeyId = some journeyId →
      Echoes cfg session journeyId body →
      ∀ seen, env.sessionsSeen = some seen → session ∈ system.store.sessions.take seen →
        correlationId = journeyId ∧
        splitJourneyId (body.get? "metadata") = (some (.str journeyId), session.metadata) ∧
        (∀ document ∈ after.metadata,
          document ∈ system.store.metadata ∨ document.metadata = session.metadata) ∧
        -- The verdict of the upload reads the records of this journey, up to the limit.
        (∀ record ∈ recordsRead cfg after.sessions after.status session.uploadId,
          record ∈ after.status ∧ record.correlationId = journeyId) ∧
        ((after.status.filter fun record => record.correlationId = journeyId).length ≤
            cfg.statusQueryLimit →
          ∀ record ∈ after.status, record.correlationId = journeyId →
            record ∈ recordsRead cfg after.sessions after.status session.uploadId)) ∧
    -- No stored metadata carries the journey.
    (∀ session ∈ after.sessions, session.metadata.get? journeyIdKey = none) ∧
    (∀ document ∈ after.metadata, document.metadata.get? journeyIdKey = none) ∧
    ∀ entry ∈ after.outbox, entry.payload.metadata.get? journeyIdKey = none := by
  intro correlationId after
  have holds := reachable.sessionsMinted
  have effect := uploadCallback_effect cfg env system.store body
  have recorded := effect.recordedUnder
  have originated : Originated cfg { system with store := after } :=
    reachable.originated.callback effect rfl
  refine ⟨recorded, ?_, ?_, ?_, ?_, ?_, ?_⟩
  · intro session stored journeyId carries
    exact callbackCorrelationId_eq_iff holds stored carries fresh
  · exact callbackCorrelationId_eq_generated_iff holds fresh
  · intro session stored journeyId carries echoes seen looks isSeen
    have valid := holds.metadata session stored
    have journey := journeyOf_session holds stored carries
    refine ⟨?_, echoes.split valid, fun document => echoes.documents valid effect, ?_, ?_⟩
    · exact (callbackCorrelationId_eq_iff holds stored carries fresh).mpr
        (echoes.joins valid carries looks isSeen)
    · intro record member
      rw [recordsRead, recorded.sessions, journey] at member
      exact mem_of_getStatusByCorrelationId member
    · intro within record member same
      rw [recordsRead, recorded.sessions, journey]
      exact mem_getStatusByCorrelationId_of_le within member same
  · rw [recorded.sessions]
    exact fun session stored => baseMetadata_no_journey (holds.metadata session stored)
  · exact fun document member =>
      baseMetadata_no_journey (originated.documents document member).metadata_valid
  · exact fun entry member =>
      baseMetadata_no_journey (originated.entries entry member).metadata_valid

namespace Sample

def settings : UploaderSettings where
  baseUrl := "/api/v1"
  uploaderUrl := "http://cdp-uploader"
  uploaderExternalUrl := none
  cdpUploaderS3Bucket := "bucket"
  cdpUploaderS3Path := "scanned"
  cdpUploaderCallbackUrl := "http://localhost:3004/api/v1/callback"
  cdpUploaderMaxFileSize := 1000000

/-- The request that initiates the upload. -/
def clientPayload : Json :=
  .obj [("redirect", .str "/upload-complete"), ("metadata", metadata "1733826312")]

/-- The callback of the upload with the metadata as it was sent. -/
def echoBody (form : List (String × Json)) : Json :=
  .obj
    [ ("uploadStatus", .str "ready"),
      ("metadata", ((buildCdpUploaderPayload config settings clientPayload journeyId).get?
        "metadata").getD .null),
      ("form", .obj form) ]

/-- The service once the upload is initiated. -/
def initiated (cfg : Config)
    (accepted : (runActions (System.step cfg) System.initial [.initiate session]).isSome = true) :
    System :=
  System.after cfg [.initiate session] accepted

/-- A poll reads a single record. -/
def oneRecord : Config := { config with statusQueryLimit := 1 }

end Sample

theorem callback_joins_its_upload_sample :
    callbackCorrelationId Sample.config (Sample.journeyEnv 1)
        (Sample.initiated Sample.config (by decide)).store
        (Sample.echoBody [("document", Sample.file Sample.fileA)]) = Sample.journeyId ∧
      callbackCorrelationId Sample.config (Sample.journeyEnv 1)
        (Sample.initiated Sample.config (by decide)).store (Sample.body []) =
          Sample.correlationId := by
  have reachable : Reachable Sample.config (Sample.initiated Sample.config (by decide)) :=
    Reachable.after _ _ _
  have fresh : ∀ session ∈ (Sample.initiated Sample.config (by decide)).store.sessions,
      session.journeyId ≠ some (Sample.journeyEnv 1).generated := by decide
  constructor
  · have echoes : Echoes Sample.config Sample.session Sample.journeyId
        (Sample.echoBody [("document", Sample.file Sample.fileA)]) :=
      ⟨Sample.settings, Sample.clientPayload, by decide, by decide⟩
    exact ((callback_joins_its_upload reachable _ _ fresh).2.2.2.1 Sample.session (by decide)
      Sample.journeyId rfl echoes 1 rfl (by decide)).1
  · refine (callback_joins_its_upload reachable _ _ fresh).2.2.1.mpr ?_
    rintro session stored journeyId carries ⟨named, _⟩
    have unnamed : metadataField (Sample.body []) journeyIdKey = none := by decide
    rw [unnamed] at named
    cases named

namespace Sample

def twoFileBody : Json := echoBody [("document", file fileA), ("statement", file fileB)]

/-- The store after a callback with two files. -/
def twoFileStore : Store :=
  (uploadCallback oneRecord (journeyEnv 1) (initiated oneRecord (by decide)).store
    twoFileBody).store

end Sample

/-- Beyond the limit a poll misses records of the callback it has joined. -/
theorem Sample.records_beyond_limit :
    callbackCorrelationId Sample.oneRecord (Sample.journeyEnv 1)
        (Sample.initiated Sample.oneRecord (by decide)).store Sample.twoFileBody =
          Sample.journeyId ∧
      ∃ record ∈ Sample.twoFileStore.status, record.correlationId = Sample.journeyId ∧
        record ∉ recordsRead Sample.oneRecord Sample.twoFileStore.sessions
          Sample.twoFileStore.status Sample.uploadId := by
  decide

end ObjectProcessor
