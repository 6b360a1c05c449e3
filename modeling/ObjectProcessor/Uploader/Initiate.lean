import ObjectProcessor.Callback.Correlation
import ObjectProcessor.Library.JsonSchema

/-!
# Initiating an upload

The client's metadata is sent to the uploader with the minted journey identifier
added to it, and is stored on the session without it.  The uploader echoes what it
was sent, and the callback takes the two apart again.
-/

namespace ObjectProcessor

open Library Schema

/-- The settings the initiate route reads. -/
structure UploaderSettings where
  /-- `baseUrl.v1` -/
  baseUrl : String
  uploaderUrl : String
  uploaderExternalUrl : Option String
  cdpUploaderS3Bucket : String
  cdpUploaderS3Path : String
  cdpUploaderCallbackUrl : String
  cdpUploaderMaxFileSize : Rat

/-- `patterns.relativePath` -/
def relativePath (text : String) : Bool :=
  match text.toList with
  | '/' :: '/' :: _ => false
  | '/' :: rest => rest.all fun char => !Json.isSpace char
  | _ => false

def initiatePayloadSchema (cfg : Config) : Json → Bool :=
  object
    [ ("redirect", required (string relativePath)),
      ("metadata", required (baseMetadataSchema cfg)) ]

/-- `{ ...clientPayload.metadata, [JOURNEY_ID_KEY]: journeyId }` -/
def withJourneyId (metadata : Option Json) (journeyId : String) : Json :=
  .obj (assign (metadata.getD .null).entries journeyIdKey (.str journeyId))

def buildCdpUploaderPayload (cfg : Config) (settings : UploaderSettings) (clientPayload : Json)
    (journeyId : String) : Json :=
  .ofProperties
    [ ("redirect", clientPayload.get? "redirect"),
      ("s3Bucket", some (.str settings.cdpUploaderS3Bucket)),
      ("s3Path", some (.str settings.cdpUploaderS3Path)),
      ("callback", some (.str settings.cdpUploaderCallbackUrl)),
      ("mimeTypes", some (.arr (cfg.cdpUploaderMimeTypes.map Json.str))),
      ("maxFileSize", some (.num (.finite settings.cdpUploaderMaxFileSize))),
      ("metadata", some (withJourneyId (clientPayload.get? "metadata") journeyId)) ]

/-- `rewriteResponseUrls` -/
def rewriteResponseUrls (settings : UploaderSettings) (uploadId : Json) : Json :=
  let externalUrl :=
    match settings.uploaderExternalUrl with
    | some url => if url = "" then settings.uploaderUrl else url
    | none => settings.uploaderUrl
  .obj
    [ ("uploadId", uploadId),
      ("uploadUrl", .str (externalUrl ++ "/upload-and-scan/" ++ uploadId.text)),
      ("statusUrl", .str (settings.baseUrl ++ "/uploader/status/" ++ uploadId.text)) ]

def initiateSuccessSchema (cfg : Config) : Json → Bool :=
  object
    [ ("uploadId", required (string cfg.isUuidV4)),
      ("uploadUrl", required anyString),
      ("statusUrl", required anyString) ]

/-! ## The route -/

/-- How the request to the uploader ends. -/
inductive UpstreamResponse where
  | timedOut
  | requestFailed
  | notOk (status : Nat)
  /-- The body is no JSON. -/
  | unreadable
  | answered (body : Json)

structure InitiateEnv where
  /-- What `randomUUID` returns. -/
  journeyId : String
  upstream : UpstreamResponse
  now : Time
  insertFails : Bool

inductive InitiateResponse where
  /-- 200 -/
  | initiated (data : Json)
  /-- 400 -/
  | badRequest
  /-- 500 -/
  | internalError
  /-- 502 -/
  | badGateway (message : String)
  /-- 503 -/
  | serverUnavailable (message : String)
  /-- 504 -/
  | gatewayTimeout (message : String)

/-- `insertSession`.  The indexes on both identifiers are unique. -/
def insertSession (insertFails : Bool) (sessions : List Session) (session : Session) :
    Option (List Session) :=
  if insertFails ∨ ∃ stored ∈ sessions,
      stored.uploadId = session.uploadId ∨ stored.journeyId = session.journeyId then none
  else some (sessions ++ [session])

/-- The session inserted once the uploader has answered with an upload identifier. -/
def initiatedSession (clientPayload uploadId : Json) (journeyId : String) (now : Time) :
    Session where
  uploadId
  journeyId := some journeyId
  metadata := (clientPayload.get? "metadata").getD .null
  timestamp := now

/-- The handler once the uploader has answered with an upload identifier.  Writing it into
the addresses can throw; an answer its own schema refuses is an internal error, with
the session stored. -/
def persistSession (cfg : Config) (settings : UploaderSettings) (env : InitiateEnv)
    (sessions : List Session) (clientPayload uploadId : Json) : InitiateResponse × List Session :=
  if uploadId.convertsToString then
    match insertSession env.insertFails sessions
        (initiatedSession clientPayload uploadId env.journeyId env.now) with
    | none => (.serverUnavailable "Unable to initiate upload session", sessions)
    | some stored =>
        let data := rewriteResponseUrls settings uploadId
        (if initiateSuccessSchema cfg data then .initiated data else .internalError, stored)
  else
    (.internalError, sessions)

/-- `POST /uploader/initiate` -/
def uploaderInitiate (cfg : Config) (settings : UploaderSettings) (env : InitiateEnv)
    (sessions : List Session) (clientPayload : Json) : InitiateResponse × List Session :=
  if initiatePayloadSchema cfg clientPayload then
    match env.upstream with
    | .timedOut => (.gatewayTimeout "Upstream service request timed out", sessions)
    | .requestFailed => (.badGateway "Upstream service request failed", sessions)
    | .notOk status => (.badGateway ("Upstream service returned " ++ toString status), sessions)
    | .unreadable => (.badGateway "Invalid response from Upstream service", sessions)
    | .answered body =>
        match (body.get? "uploadId").filter Json.truthy with
        | none => (.badGateway "Invalid response from Upstream service", sessions)
        | some uploadId => persistSession cfg settings env sessions clientPayload uploadId
  else
    (.badRequest, sessions)

/-- The session an initiate request stores, if it stores one. -/
theorem uploaderInitiate_sessions (cfg : Config) (settings : UploaderSettings) (env : InitiateEnv)
    (sessions : List Session) (clientPayload : Json) :
    (uploaderInitiate cfg settings env sessions clientPayload).2 = sessions ∨
      ∃ uploadId metadata, clientPayload.get? "metadata" = some metadata ∧
        baseMetadataSchema cfg metadata = true ∧ uploadId.truthy = true ∧
        (∀ stored ∈ sessions,
          stored.uploadId ≠ uploadId ∧ stored.journeyId ≠ some env.journeyId) ∧
        (uploaderInitiate cfg settings env sessions clientPayload).2 =
          sessions ++ [initiatedSession clientPayload uploadId env.journeyId env.now] := by
  unfold uploaderInitiate
  split
  · rename_i valid
    have admitted : (required (baseMetadataSchema cfg)).admits (clientPayload.get? "metadata") =
        true := object_key valid (by simp)
    obtain ⟨metadata, found, isBase⟩ := admits_required admitted
    split
    · exact Or.inl rfl
    · exact Or.inl rfl
    · exact Or.inl rfl
    · exact Or.inl rfl
    · split
      · exact Or.inl rfl
      · rename_i uploadId named
        unfold persistSession
        split
        · split
          · exact Or.inl rfl
          · rename_i stored inserted
            simp only [insertSession, Option.ite_none_left_eq_some, not_or, not_exists, not_and,
              Option.some.injEq] at inserted
            obtain ⟨⟨_, new⟩, rfl⟩ := inserted
            exact Or.inr ⟨uploadId, metadata, found, isBase,
              (Option.filter_eq_some_iff.mp named).2, new, rfl⟩
        · exact Or.inl rfl
  · exact Or.inl rfl

/-! ## What comes back -/

section Echo

variable {cfg : Config} {metadata : Json}

/-- The journey identifier is sent after the client's own fields. -/
theorem withJourneyId_eq {fields : List (String × Json)}
    (names : ∀ field ∈ fields, Json.arrayIndex? field.1 = none ∧ field.1 ≠ journeyIdKey)
    (journeyId : String) :
    withJourneyId (some (.obj fields)) journeyId =
      .obj (fields ++ [(journeyIdKey, .str journeyId)]) := by
  have absent : journeyIdKey ∉ fields.map Prod.fst := by
    intro member
    obtain ⟨field, listed, same⟩ := List.mem_map.mp member
    exact (names field listed).2 same
  rw [withJourneyId, Option.getD_some, Json.entries,
    Json.listed_of_no_index fun field member => (names field member).1, assign_of_not_mem _ absent]

/-- The callback recovers the journey identifier and the client's own metadata. -/
theorem splitJourneyId_withJourneyId (valid : baseMetadataSchema cfg metadata = true)
    (journeyId : String) :
    splitJourneyId (some (withJourneyId (some metadata) journeyId)) =
      (some (.str journeyId), metadata) := by
  obtain ⟨fields, rfl, names⟩ := baseMetadata_fields valid
  have plain : ∀ field ∈ fields ++ [(journeyIdKey, Json.str journeyId)],
      Json.arrayIndex? field.1 = none := by
    rw [List.forall_mem_append, List.forall_mem_singleton]
    have isName : Json.arrayIndex? journeyIdKey = none := by decide
    exact ⟨fun field member => (names field member).1, isName⟩
  have others : fields.filter (fun field => decide (field.1 ≠ journeyIdKey)) = fields :=
    List.filter_eq_self.mpr fun field member => decide_eq_true (names field member).2
  have found : (fields ++ [(journeyIdKey, Json.str journeyId)]).lookup journeyIdKey =
      some (.str journeyId) := by
    rw [List.lookup_append, lookup_eq_none fun field member => (names field member).2]
    simp
  rw [withJourneyId_eq names]
  simp only [splitJourneyId, Option.getD_some, Json.get?_obj, found, Json.entries,
    Json.listed_of_no_index plain, List.filter_append, others]
  simp

end Echo

theorem buildCdpUploaderPayload_metadata (cfg : Config) (settings : UploaderSettings)
    (clientPayload : Json) (journeyId : String) :
    (buildCdpUploaderPayload cfg settings clientPayload journeyId).get? "metadata" =
      some (withJourneyId (clientPayload.get? "metadata") journeyId) := by
  rw [buildCdpUploaderPayload, Json.get?_ofProperties (by simp)]
  simp [List.lookup_cons]

end ObjectProcessor
