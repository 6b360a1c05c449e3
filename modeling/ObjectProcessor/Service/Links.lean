import ObjectProcessor.Callback.Validators
import ObjectProcessor.Metadata.Blob
import ObjectProcessor.Service.Batches
import ObjectProcessor.Service.Origins

/-!
# Published links

Every event links to the blob route, under the identifier of its file.  Whenever the link is
followed, in the state the event was built in or in any later one, the route signs the S3
reference the uploader reported for that file.
-/

namespace ObjectProcessor

open Library

variable {cfg : Config} {system next later : System} {action : Action}

/-- The document of a payload, apart from what publishing changes. -/
structure Documents (payload document : MetadataDocument) : Prop where
  metadata : document.metadata = payload.metadata
  file : document.file = payload.file
  s3 : document.s3 = payload.s3

/-- The document of the payload is stored. -/
def Documented (system : System) (payload : MetadataDocument) : Prop :=
  ∃ document ∈ system.store.metadata, Documents payload document

theorem Documented.step {payload : MetadataDocument} (documented : Documented system payload)
    (edge : Edge cfg system action next) : Documented next payload := by
  obtain ⟨document, found, same⟩ := documented
  obtain ⟨fate, new, spec⟩ := metadataStep_of_edge edge
  refine ⟨fate document, spec.mem_fate found, ?_⟩
  rcases spec.each document with kept | ⟨time, published⟩
  · rwa [kept]
  · rw [published]
    exact ⟨same.metadata, same.file, same.s3⟩

theorem Documented.reaches {payload : MetadataDocument} (documented : Documented system payload)
    (reach : Reaches (System.step cfg) system later) : Documented later payload :=
  reach.induction (motive := fun last => Documented last payload) documented
    fun _ _ _ _ holds accepted => holds.step (edge_of_step accepted)

theorem documented_step {before after : System}
    (all : ∀ entry ∈ createdEntries before.history, Documented before entry.payload)
    (edge : Edge cfg before action after) :
    ∀ entry ∈ createdEntries after.history, Documented after entry.payload := by
  intro entry member
  by_cases isCallback : ∃ env body, action = .callback env body
  · obtain ⟨env, body, rfl⟩ := isCallback
    obtain ⟨new, _, created, stored⟩ := edge.appends
    rw [created] at member
    rcases List.mem_append.mp member with isNew | old
    · exact ⟨entry.payload, stored entry isNew, rfl, rfl, rfl⟩
    · exact (all entry old).step edge
  · rw [edge.createdEntries_eq fun env body same => isCallback ⟨env, body, same⟩] at member
    exact (all entry member).step edge

/-- The document of every event is stored. -/
theorem Reachable.documented (reachable : Reachable cfg system) {payload : MetadataDocument}
    (isEvent : system.IsEvent payload) : Documented system payload := by
  have created : ∀ entry ∈ createdEntries system.history, Documented system entry.payload := by
    refine Reaches.induction (motive := fun system =>
      ∀ entry ∈ createdEntries system.history, Documented system entry.payload) reachable ?_ ?_
    · simp [System.initial, createdEntries]
    · intro before action after _ all accepted
      exact documented_step all (edge_of_step accepted)
  have events := reachable.eventsLinked
  cases isEvent with
  | created member => exact created _ member
  | stored member =>
      obtain ⟨entry, found, same⟩ := events.stored _ member
      exact same ▸ created entry found
  | held member =>
      obtain ⟨entry, found, same⟩ := events.held _ _ member
      exact same ▸ created entry found

/-! ## And the other way round -/

/-- An entry was created for the document. -/
def Announced (system : System) (document : MetadataDocument) : Prop :=
  ∃ entry ∈ createdEntries system.history, entry.fileId = document.fileId

theorem announced_step {before after : System} (agreement : Agreement after)
    (all : ∀ document ∈ before.store.metadata, Announced before document)
    (edge : Edge cfg before action after) :
    ∀ document ∈ after.store.metadata, Announced after document := by
  intro document member
  have grows {document : MetadataDocument} (announced : Announced before document) :
      Announced after document := by
    obtain ⟨entry, created, same⟩ := announced
    obtain ⟨events, recorded⟩ := edge.grows
    rw [Announced, recorded, createdEntries_append]
    exact ⟨entry, List.mem_append_right _ created, same⟩
  obtain ⟨fate, new, spec⟩ := metadataStep_of_edge edge
  rcases spec.mem_cases member with ⟨stored, found, rfl⟩ | fresh
  · obtain ⟨entry, created, same⟩ := grows (all stored found)
    exact ⟨entry, created, same.trans (spec.fileId_eq stored).symm⟩
  · rcases agreement.covered document member with
      ⟨entry, found, _, same⟩ | ⟨_, _, _, _, _, published⟩
    · obtain ⟨created, recorded, _, file⟩ := agreement.createdAll entry found
      exact ⟨created, recorded, file.trans same⟩
    · rw [(spec.created document fresh).1] at published
      cases published

theorem Reachable.announced (reachable : Reachable cfg system) {document : MetadataDocument}
    (stored : document ∈ system.store.metadata) : Announced system document := by
  refine Reaches.induction (motive := fun system =>
    ∀ document ∈ system.store.metadata, Announced system document) reachable ?_ ?_ document stored
  · simp [System.initial]
  · intro before action after reached all accepted
    exact announced_step (Reachable.step reached accepted).agreement.2 all (edge_of_step accepted)

/-! ## Reports -/

/-- The document has the contents of one that an accepted callback of the run has built. -/
def BroughtBy (cfg : Config) (actions : List Action) (document : InboundDocument) : Prop :=
  ∃ env store body documents, Action.callback env body ∈ actions ∧
    Accepted cfg env store body documents ∧ ∃ built ∈ documents,
      document.metadata = built.metadata ∧ document.file = built.file ∧ document.s3 = built.s3

theorem BroughtBy.snoc {actions : List Action} {document : InboundDocument}
    (brought : BroughtBy cfg actions document) (action : Action) :
    BroughtBy cfg (actions ++ [action]) document := by
  obtain ⟨env, store, body, documents, member, accepted⟩ := brought
  exact ⟨env, store, body, documents, List.mem_append_left _ member, accepted⟩

/-- What a callback adds to the documents it has built itself. -/
theorem broughtBy_of_callback {actions : List Action} {env : CallbackEnv} {body : Json}
    {store after : Store} (effect : CallbackEffect cfg env store body after)
    (all : ∀ document ∈ store.metadata, BroughtBy cfg actions document.toInboundDocument) :
    ∀ document ∈ after.metadata,
      BroughtBy cfg (actions ++ [.callback env body]) document.toInboundDocument := by
  intro document member
  cases effect with
  | unchanged => exact (all document member).snoc _
  | failed => exact (all document member).snoc _
  | committed documents accepted =>
      rcases List.mem_append.mp member with old | fresh
      · exact (all document old).snoc _
      · exact ⟨env, store, body, documents, by simp, accepted, document.toInboundDocument,
          inbound_of_mem_withIds fresh, rfl, rfl, rfl⟩

/-- Every stored document was brought by a callback of the run. -/
theorem broughtBy_of_run {actions : List Action}
    (run : runActions (System.step cfg) System.initial actions = some system) :
    ∀ document ∈ system.store.metadata, BroughtBy cfg actions document.toInboundDocument := by
  induction actions using List.reverseRecOn generalizing system with
  | nil =>
      cases run
      simp [System.initial]
  | append_singleton actions action ih =>
      obtain ⟨middle, before, accepted⟩ := runActions_snoc_inv run
      have edge := edge_of_step accepted
      by_cases isCallback : ∃ env body, action = .callback env body
      · obtain ⟨env, body, rfl⟩ := isCallback
        cases edge with
        | callback past distinct fresh result effect =>
            exact broughtBy_of_callback effect (ih before)
      · intro document member
        obtain ⟨fate, new, spec⟩ := metadataStep_of_edge edge
        rcases spec.mem_cases member with ⟨stored, found, rfl⟩ | fresh
        · have brought := (ih before stored found).snoc action
          rcases spec.each stored with kept | ⟨time, published⟩
          · rwa [kept]
          · rw [published]
            exact brought
        · exact absurd (spec.created document fresh).2 isCallback

/-- A file of the body's form has the identifier, and the uploader names the object for it. -/
def Reports (body : Json) (fileId key bucket : String) : Prop :=
  ∃ upload ∈ flattenFormValues (body.get? "form"), upload.get? "fileId" = some (.str fileId) ∧
    upload.get? "s3Key" = some (.str key) ∧ upload.get? "s3Bucket" = some (.str bucket)

/-! ## Links -/

/-- What is guaranteed of a document that is linked to, and was brought by the body. -/
structure Linkable (cfg : Config) (body : Json) (document : InboundDocument) : Prop where
  object : ∃ fileId key bucket, document.file.fileId = .str fileId ∧
    cfg.isUuidV4 fileId = true ∧ Reports body fileId key bucket ∧
    document.s3 = { key := some (.str key), bucket := some (.str bucket) } ∧
    key ≠ "" ∧ bucket ≠ ""
  sbi : document.metadata.get? "sbi" = metadataField body "sbi"
  crn : document.metadata.get? "crn" = metadataField body "crn"
  accounts : ∃ accounts,
    buildAuditAccounts (document.metadata.get? "sbi") (document.metadata.get? "crn") =
      some accounts

theorem BroughtBy.linkable {actions : List Action} {document : InboundDocument}
    (brought : BroughtBy cfg actions document) :
    ∃ env body, Action.callback env body ∈ actions ∧ Linkable cfg body document := by
  obtain ⟨env, store, body, documents, acts, accepted, built, member, metadata, file, s3⟩ :=
    brought
  have origin : FromCallback cfg built :=
    ⟨env, store, body, documents, accepted, built, member, rfl, rfl, rfl, rfl⟩
  have convertible := origin.canConvert
  obtain ⟨text, named, _, rule⟩ := accepted.fileId member
  obtain ⟨upload, inForm, isFile, fileValid, complete, rfl⟩ := accepted.file member
  have isComplete := completeFile_of_schema fileValid complete
  obtain ⟨key, hasKey, keyed⟩ := isComplete.s3Key
  obtain ⟨bucket, hasBucket, bucketed⟩ := isComplete.s3Bucket
  obtain ⟨fields, hasFields, agrees⟩ := handledPayload_metadata accepted.schema
  have same : document.metadata = fields := by simp [metadata, inboundDocument, hasFields]
  refine ⟨env, body, acts, ?_, ?_, ?_, ?_⟩
  case refine_1 =>
    refine ⟨text, key, bucket, by rw [file, named], rule, ⟨upload, inForm, ?_, hasKey, hasBucket⟩,
      by simp [s3, inboundDocument, hasKey, hasBucket], keyed, bucketed⟩
    simp only [hasFileId, Bool.and_eq_true, Option.any_eq_true] at isFile
    obtain ⟨_, fileId, found, _⟩ := isFile
    rw [found]
    simpa [inboundDocument, found] using named
  case refine_2 => rw [same, agrees "sbi" (by decide) (by decide)]
  case refine_3 => rw [same, agrees "crn" (by decide) (by decide)]
  case refine_4 =>
    rw [metadata]
    exact ⟨_, if_pos convertible.1⟩

/-- `data.file.url` of a message. -/
def messageUrl (message : Json) : Option Json :=
  (messageData message "file").bind fun file => file.get? "url"

theorem messageUrl_build (clock : MessageClock) (payload : MetadataDocument) :
    messageUrl (buildDocumentUploadMessage cfg clock payload) =
      some (.str (blobUrl cfg payload.file.fileId)) := by
  simp [messageUrl, messageData, buildDocumentUploadMessage, Json.get?_ofProperties,
    List.lookup_cons]

/-- The answer to a link: the presigned address of the object, with the event of the read,
or an internal error when it cannot be signed. -/
def linkAnswer (settings : BlobSettings) (correlationid : Option String) (s3 : DocumentS3)
    (fileId : String) (accounts : AuditAccounts) : BlobResponse × Option BlobAudit :=
  match settings.getSignedUrl s3 with
  | some url => (.ok url, some { correlationid, entityid := fileId, accounts })
  | none => (.internalError, none)

theorem blobHandler_of_found {settings : BlobSettings} {stored : List MetadataDocument}
    {fileId : String} {found : S3ReferenceAndAccounts} {accounts : AuditAccounts}
    (lookup : getS3ReferenceAndAccountsByFileId stored fileId = .ok found)
    (built : buildAuditAccounts found.sbi found.crn = some accounts)
    (correlationid : Option String) :
    blobHandler settings stored correlationid fileId =
      linkAnswer settings correlationid found.s3 fileId accounts := by
  rw [blobHandler, lookup, linkAnswer]
  simp only [built]
  cases settings.getSignedUrl found.s3 with
  | some url => rfl
  | none => rfl

/-- The link of every event ever built leads, now and in every later state, to the S3 object
that the uploader reported for its file in a callback of the run, and the route finds nothing
under any other identifier. -/
theorem published_links_resolve {actions : List Action}
    (run : runActions (System.step cfg) System.initial actions = some system)
    (reach : Reaches (System.step cfg) system later)
    (segments : ∀ text, cfg.isUuidV4 text = true → isSegment text = true)
    {settings : BlobSettings} (base : settings.baseUrl = "/api/v1")
    (correlationid : Option String) :
    (∀ payload, system.IsEvent payload → ∃ path env body fileId key bucket accounts,
      (∀ clock, messageUrl (buildDocumentUploadMessage cfg clock payload) =
          some (.str (cfg.publicApiBaseUrl ++ path))) ∧
        payload.file.fileId = .str fileId ∧
        Action.callback env body ∈ actions ∧ Reports body fileId key bucket ∧
        key ≠ "" ∧ bucket ≠ "" ∧
        buildAuditAccounts (metadataField body "sbi") (metadataField body "crn") =
          some accounts ∧
        blobRoute cfg settings later.store.metadata correlationid path =
          some (linkAnswer settings correlationid
            { key := some (.str key), bucket := some (.str bucket) } fileId accounts)) ∧
      ∀ fileId, cfg.isUuidV4 fileId = true →
        (blobRoute cfg settings later.store.metadata correlationid
            ("/api/v1" ++ ("/blob/" ++ fileId)) =
              some (.notFound ⟨noDocumentsFoundError⟩, none) ↔
          ∀ payload, later.IsEvent payload → payload.file.fileId ≠ .str fileId) := by
  have reachable : Reachable cfg system := ⟨actions, run⟩
  have laterReachable := reachable.reaches reach
  constructor
  · intro payload isEvent
    have documented := reachable.documented isEvent
    obtain ⟨document, stored, same⟩ := documented.reaches reach
    obtain ⟨brought, held, sameNow⟩ := documented
    obtain ⟨env, body, acts, linkable⟩ := (broughtBy_of_run run brought held).linkable
    obtain ⟨fileId, key, bucket, named, valid, reports, object, keyed, bucketed⟩ := linkable.object
    obtain ⟨accounts, built⟩ := linkable.accounts
    have fileId_eq : document.fileId = .str fileId := by
      rw [MetadataDocument.fileId, same.file, ← sameNow.file, named]
    refine ⟨"/api/v1" ++ ("/blob/" ++ fileId), env, body, fileId, key, bucket, accounts, ?_, ?_,
      acts, reports, keyed, bucketed, ?_, ?_⟩
    · intro clock
      rw [messageUrl_build, blobUrl, ← sameNow.file, named]
      rfl
    · rw [← sameNow.file, named]
    · rw [← linkable.sbi, ← linkable.crn, built]
    · have found := getS3Reference_of_stored laterReachable.coherent.fileIds stored fileId_eq
      rw [same.metadata, ← sameNow.metadata, same.s3, ← sameNow.s3, object] at found
      rw [← base, blobRoute_append _ _ _ (segments fileId valid) valid,
        blobHandler_of_found found built]
  · intro fileId valid
    rw [← base, blobRoute_append _ _ _ (segments fileId valid) valid, Option.some.injEq,
      blobHandler_notFound_iff]
    constructor
    · intro absent payload isEvent
      obtain ⟨document, stored, same⟩ := laterReachable.documented isEvent
      exact same.file ▸ absent document stored
    · intro absent document stored
      obtain ⟨entry, created, same⟩ := laterReachable.announced stored
      exact fun named => absent entry.payload (.created created) (same.trans named)

/-- An identifier of the lenient form is a segment of a path. -/
theorem isSegment_of_lenient {text : String} (lenient : isLenientUuidV4 text = true) :
    isSegment text = true := by
  simp only [isSegment, Bool.and_eq_true, decide_eq_true_eq, List.all_eq_true]
  refine ⟨isLenientUuidV4_nonempty lenient, fun char member => decide_eq_true fun isReserved => ?_⟩
  have isLenient := isLenientUuidV4_chars lenient char member
  simp only [List.mem_cons, List.not_mem_nil, or_false] at isReserved
  rcases isReserved with rfl | rfl | rfl | rfl <;> exact absurd isLenient (by decide)

/-- An S3 whose addresses name the bucket and the key. -/
def Sample.blobSettings : BlobSettings where
  baseUrl := "/api/v1"
  getSignedUrl s3 := some ("https://" ++ Json.templateText s3.bucket ++ "/" ++
    Json.templateText s3.key)

/-- The links of the two files of the sample lead to the objects its callback has named. -/
theorem published_links_resolve_sample :
    (System.after Sample.config Sample.upload (by decide)).store.outbox.length = 2 ∧
      ∀ entry ∈ (System.after Sample.config Sample.upload (by decide)).store.outbox,
        ∃ path env body fileId key bucket accounts,
          (∀ clock, messageUrl (buildDocumentUploadMessage Sample.config clock entry.payload) =
              some (.str (Sample.config.publicApiBaseUrl ++ path))) ∧
            Action.callback env body ∈ Sample.upload ∧ Reports body fileId key bucket ∧
            blobRoute Sample.config Sample.blobSettings
                (System.after Sample.config Sample.upload (by decide)).store.metadata none path =
              some (.ok ("https://" ++ bucket ++ "/" ++ key),
                some { correlationid := none, entityid := fileId, accounts }) := by
  refine ⟨by decide, fun entry member => ?_⟩
  obtain ⟨resolves, _⟩ := published_links_resolve
    (Option.some_get (show (runActions (System.step Sample.config) System.initial
      Sample.upload).isSome = true by decide)).symm (.refl _)
    (fun _ => isSegment_of_lenient) (show Sample.blobSettings.baseUrl = "/api/v1" from rfl) none
  obtain ⟨path, env, body, fileId, key, bucket, accounts, links, _, acts, reports, _, _, _,
    answer⟩ := resolves entry.payload (.stored member)
  exact ⟨path, env, body, fileId, key, bucket, accounts, links, acts, reports, answer⟩

end ObjectProcessor
