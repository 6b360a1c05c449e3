import ObjectProcessor.Service.Journeys
import ObjectProcessor.Uploader.Status

/-!
# The answers of the status route

Errors a callback is refused with are stored, and later polls repeat their field names.
The route validates its own answer, so a record of a journey without a field name turns
every poll of its upload into an internal error.
-/

namespace ObjectProcessor

open Library Schema

/-! ## What the schema reports -/

/-- The report on a refused body: every detail has a type, and below an object its path
starts with a key of the schema or a field of the body. -/
structure Reported (body : Json) (error : ValidationError) : Prop where
  detailed : ∃ details, error.details = some details ∧ ∀ detail ∈ details,
    (∃ type, detail.type = some type ∧ type ≠ "") ∧
      ∀ fields, body = .obj fields → ∃ key rest, detail.path = some (key :: rest) ∧
        (key ∈ ["uploadStatus", "metadata", "form", "numberOfRejectedFiles"] ∨
          key ∈ fields.map Prod.fst)

/-- The body is an object none of whose fields has the empty name. -/
def namesFields : Json → Bool
  | .obj fields => fields.all fun field => field.1 ≠ ""
  | _ => false

theorem Reported.named {body : Json} {error : ValidationError} (reported : Reported body error)
    (names : namesFields body = true) {item : StatusError}
    (member : item ∈ mapValidationErrors error) : item.Named := by
  obtain ⟨details, detailed, each⟩ := reported.detailed
  refine mapValidationErrors_named detailed (fun detail listed => ?_) member
  obtain ⟨typed, path⟩ := each detail listed
  cases body with
  | obj fields =>
      obtain ⟨key, rest, hasPath, source⟩ := path fields rfl
      refine ⟨typed, key, rest, hasPath, ?_⟩
      rcases source with isKey | isField
      · intro empty
        rw [empty] at isKey
        exact absurd isKey (by decide)
      · obtain ⟨field, inBody, rfl⟩ := List.mem_map.mp isField
        simpa using List.all_eq_true.mp names field inBody
  | _ => cases names

theorem RecordedErrors.named {cfg : Config} {env : CallbackEnv} {body : Json}
    {errors : Option (List StatusError)} (recorded : RecordedErrors cfg env body errors)
    (report : callbackPayloadSchema cfg body = false → Reported body env.validationError)
    (names : RefusalRecorded cfg env body → namesFields body = true) :
    ∀ error ∈ errors.getD [], error.Named := by
  cases recorded with
  | none => simp
  | schema refused =>
      exact fun error member => (report refused.1).named (names refused) member
  | message message => exact fun error member => mapValidationErrors_ofMessage_named member

/-! ## The records of a journey -/

/-- The identifier is the journey of a stored session. -/
def IsJourney (sessions : List Session) (correlationId : String) : Prop :=
  ∃ session ∈ sessions, session.journeyId = some correlationId

instance (sessions : List Session) (correlationId : String) :
    Decidable (IsJourney sessions correlationId) := by
  unfold IsJourney
  infer_instance

/-- Whatever is recorded under the journey of an upload has named errors. -/
def ErrorsNamed (system : System) : Prop :=
  ∀ record ∈ system.store.status, IsJourney system.store.sessions record.correlationId →
    ∀ error ∈ record.errors.getD [], error.Named

/-- The journey an initiate mints is not one anything is recorded under: `randomUUID`
returns no identifier twice. -/
def MintsUnused (system : System) : Action → Prop
  | .initiate session =>
      ∀ record ∈ system.store.status, session.journeyId ≠ some record.correlationId
  | _ => True

/-- A refusal recorded under the journey of an upload has named fields. -/
def RefusalsName (cfg : Config) (system : System) : Action → Prop
  | .callback env body =>
      RefusalRecorded cfg env body →
        IsJourney system.store.sessions (callbackCorrelationId cfg env system.store body) →
          namesFields body = true
  | _ => True

/-- The refusals of the action are reported as Joi reports them. -/
def Action.reported (cfg : Config) : Action → Prop
  | .callback env body =>
      callbackPayloadSchema cfg body = false → Reported body env.validationError
  | _ => True

instance (system : System) : (action : Action) → Decidable (MintsUnused system action)
  | .initiate session => inferInstanceAs
      (Decidable (∀ record ∈ system.store.status, session.journeyId ≠ some record.correlationId))
  | .tick _ | .callback _ _ | .start _ | .claim _ _ | .claimsDone _ | .publish _ _
  | .finalize _ _ _ | .report _ | .abandon _ | .expire _ => isTrue trivial

instance (cfg : Config) (system : System) : (action : Action) →
    Decidable (RefusalsName cfg system action)
  | .callback env body => inferInstanceAs
      (Decidable (RefusalRecorded cfg env body →
        IsJourney system.store.sessions (callbackCorrelationId cfg env system.store body) →
          namesFields body = true))
  | .tick _ | .initiate _ | .start _ | .claim _ _ | .claimsDone _ | .publish _ _
  | .finalize _ _ _ | .report _ | .abandon _ | .expire _ => isTrue trivial

variable {cfg : Config} {system next : System} {action : Action}

theorem errorsNamed_initiate {session : Session} (holds : ErrorsNamed system)
    (unused : ∀ record ∈ system.store.status, session.journeyId ≠ some record.correlationId)
    (sessions : next.store.sessions = system.store.sessions ++ [session])
    (status : next.store.status = system.store.status) : ErrorsNamed next := by
  rintro record member ⟨found, isSession, carries⟩
  rw [status] at member
  rw [sessions] at isSession
  rcases List.mem_append.mp isSession with old | new
  · exact holds record member ⟨found, old, carries⟩
  · cases List.mem_singleton.mp new
    exact absurd carries (unused record member)

theorem errorsNamed_callback {env : CallbackEnv} {body : Json} (holds : ErrorsNamed system)
    (report : callbackPayloadSchema cfg body = false → Reported body env.validationError)
    (names : RefusalsName cfg system (.callback env body))
    (stored : next.store = (uploadCallback cfg env system.store body).store) :
    ErrorsNamed next := by
  intro record member journey
  have sessions : next.store.sessions = system.store.sessions := by
    rw [stored]
    exact (uploadCallback_effect cfg env system.store body).recordedUnder.sessions
  rw [sessions] at journey
  rw [stored] at member
  rcases uploadCallback_records member with old | ⟨under, recorded⟩
  · exact holds record old journey
  · rw [under] at journey
    exact recorded.named report fun refused => names refused journey

/-- Nothing else writes sessions or records. -/
theorem errorsNamed_step (holds : ErrorsNamed system) (unused : MintsUnused system action)
    (names : RefusalsName cfg system action) (report : action.reported cfg)
    (accepted : system.step cfg action = some next) : ErrorsNamed next := by
  cases edge_of_step accepted with
  | initiate named minted valid new => exact errorsNamed_initiate holds unused rfl rfl
  | callback past distinct fresh result effect =>
      exact errorsNamed_callback holds report names result.symm
  | _ => exact holds

/-! ## The answers -/

theorem errors_of_recordsRead {sessions : List Session} {status : List StatusRecord}
    {metadata : List MetadataDocument} {outbox : List OutboxEntry} {uploadId : Json}
    (named : ∀ record ∈ recordsRead cfg sessions status uploadId,
      ∀ error ∈ record.errors.getD [], error.Named) {errors : List ResponseError}
    (reported : (getLocalVerdictByUploadId cfg sessions status metadata outbox uploadId).errors =
      some errors) : ∀ error ∈ errors, error.Named := by
  rw [getLocalVerdictByUploadId_eq] at reported
  split at reported
  · cases reported
  · simp only [verdictOfRecords] at reported
    split at reported
    · simp only [Option.some.injEq] at reported
      rw [← reported]
      split
      · intro error member
        obtain ⟨item, recorded, rfl⟩ := List.mem_map.mp member
        obtain ⟨record, failed, listed⟩ := List.mem_flatMap.mp recorded
        exact named record (List.mem_filter.mp failed).1 item listed
      · intro error member
        cases List.mem_singleton.mp member
        exact ⟨by decide, by decide⟩
    · split at reported
      · simp only [Option.some.injEq] at reported
        rw [← reported]
        intro error member
        cases List.mem_singleton.mp member
        exact ⟨by decide, by decide⟩
      · cases reported

/-- Every poll that reads the records of this state gets an answer the schema of the route
admits: its session read may be older, and its last reads find anything. -/
def StatusAnswersValid (cfg : Config) (system : System) : Prop :=
  ∀ sessions, sessions <+: system.store.sessions → ∀ metadata outbox uploadId toNumber body,
    cdpUploaderStatusResponseSchema cfg toNumber body = true →
      let answer := mapCdpStatus toNumber
        (getLocalVerdictByUploadId cfg sessions system.store.status metadata outbox uploadId) body
      uploaderStatusSuccessSchema cfg answer.toJson = true ∧
        answer.metadata.get? journeyIdKey = none

theorem statusAnswersValid_of_named (holds : ErrorsNamed system) :
    StatusAnswersValid cfg system := by
  intro sessions earlier metadata outbox uploadId toNumber body accepted
  refine ⟨mapCdpStatus_valid accepted fun errors reported => ?_, mapCdpStatus_metadata _ body⟩
  refine errors_of_recordsRead (fun record member => ?_) reported
  unfold recordsRead at member
  cases journey : journeyOf sessions uploadId with
  | none => simp [journey] at member
  | some journeyId =>
      rw [journey, Option.elim_some] at member
      obtain ⟨stored, under⟩ := mem_of_getStatusByCorrelationId member
      refine holds record stored ?_
      rw [under]
      obtain ⟨session, found, carries⟩ :=
        Option.bind_eq_some_iff.mp (Option.filter_eq_some_iff.mp journey).1
      exact ⟨session, earlier.subset (List.mem_of_find?_eq_some found), carries⟩

/-- While no refusal without named fields is recorded under the journey of an upload, no
poll ends in an answer its own schema refuses. -/
theorem status_answers_valid_when_refusals_name {actions : List Action}
    (reports : ∀ action ∈ actions, action.reported cfg)
    (unused : EveryStep (System.step cfg) MintsUnused System.initial actions)
    (names : EveryStep (System.step cfg) (RefusalsName cfg) System.initial actions) :
    Throughout (System.step cfg) (StatusAnswersValid cfg) System.initial actions := by
  have initial : ErrorsNamed System.initial := by simp [ErrorsNamed, System.initial]
  have admitted : EveryStep (System.step cfg) (fun system action =>
      MintsUnused system action ∧ RefusalsName cfg system action ∧ action.reported cfg)
      System.initial actions := by
    intro front action rest system split reached
    exact ⟨unused front action rest system split reached,
      names front action rest system split reached, reports action (by simp [split])⟩
  refine (throughout_of_everyStep initial ?_ admitted).imp fun system _ holds =>
    statusAnswersValid_of_named holds
  intro system action next _ holds admits accepted
  exact errorsNamed_step holds admits.1 admits.2.1 admits.2.2 accepted

namespace Sample

/-- The callback of the upload with a further field, which the schema does not know. -/
def bodyWith (name : String) : Json :=
  .obj ((name, .int 0) :: (echoBody [("document", file fileA)]).entries)

/-- The schema reports the field under its name. -/
def reportOf (name : String) : ValidationError where
  message := some "not allowed"
  details := some
    [{ path := some [name], type := some "object.unknown", value := some (.int 0) }]

/-- The upload is initiated, and its callback is refused for the field. -/
def refused (name : String) : List Action :=
  [ .initiate session,
    .callback { journeyEnv 1 with validationError := reportOf name } (bodyWith name) ]

/-- The uploader has scanned the files and found nothing. -/
def readyResponse : Json :=
  .obj
    [ ("uploadStatus", .str "ready"), ("metadata", metadata "1733826312"), ("form", .obj []),
      ("numberOfRejectedFiles", .int 0) ]

/-- What a poll of the upload answers then. -/
def answerIn (store : Store) : MappedStatus :=
  mapCdpStatus (fun _ => none)
    (getLocalVerdictByUploadId config store.sessions store.status store.metadata store.outbox
      uploadId) readyResponse

end Sample

theorem reported_unknown_field (name : String) :
    Reported (Sample.bodyWith name) (Sample.reportOf name) := by
  refine ⟨_, rfl, List.forall_mem_singleton.mpr ⟨⟨_, rfl, by decide⟩, ?_⟩⟩
  rintro fields same
  cases same
  exact ⟨name, [], rfl, Or.inr (List.mem_cons_self ..)⟩

/-- A poll answers while the field that is refused has a name. -/
theorem status_answers_valid_when_refusals_name_sample :
    uploaderStatusSuccessSchema Sample.config (Sample.answerIn
      (System.after Sample.config (Sample.refused "extra") (by decide)).store).toJson = true := by
  have reports : ∀ action ∈ Sample.refused "extra", action.reported Sample.config := by
    simp only [Sample.refused, List.forall_mem_cons]
    exact ⟨trivial, fun _ => reported_unknown_field "extra", by simp⟩
  have accepted : (runActions (System.step Sample.config) System.initial
      (Sample.refused "extra")).isSome = true := by decide
  have valid : StatusAnswersValid Sample.config
      (System.after Sample.config (Sample.refused "extra") accepted) :=
    status_answers_valid_when_refusals_name reports (by decide) (by decide)
      (Sample.refused "extra") [] _ (by simp) (Option.some_get accepted).symm
  exact (valid _ (List.prefix_refl _) _ _ Sample.uploadId (fun _ => none) Sample.readyResponse
    (by decide)).1

/-- A field with the empty name is refused and recorded, and no poll of the upload gets an
answer any more. -/
theorem Sample.empty_name_spoils_answers :
    Reported (Sample.bodyWith "") (Sample.reportOf "") ∧
      cdpUploaderStatusResponseSchema Sample.config (fun _ => none) Sample.readyResponse = true ∧
      uploaderStatusSuccessSchema Sample.config (Sample.answerIn
        (System.after Sample.config (Sample.refused "") (by decide)).store).toJson = false :=
  ⟨reported_unknown_field "", by decide, by decide⟩

end ObjectProcessor
