import ObjectProcessor.Library.Grouping
import ObjectProcessor.Outbox.Message
import ObjectProcessor.Service.Agreement

/-!
# The files of a batch

The number of files is counted in one payload, the identifier it is published under
comes from the journey.  The two agree over the whole store exactly as long as no
callback commits documents under an identifier that has some already.
-/

namespace ObjectProcessor

open Library

variable {cfg : Config} {system next : System} {action : Action}

/-- A field of the data of a message. -/
def messageData (message : Json) (name : String) : Option Json :=
  (message.get? "data").bind fun data => data.get? name

/-- The number of documents stored under the identifier. -/
def System.filesUnder (system : System) (correlationId : String) : Nat :=
  groupSize (fun document => document.messaging.correlationId) system.store.metadata correlationId

/-- The payload an event was or is to be built from: that of a created entry, of an entry
of the outbox, or of a snapshot some worker holds. -/
inductive System.IsEvent (system : System) : MetadataDocument → Prop where
  | created {entry : OutboxEntry} (member : entry ∈ createdEntries system.history) :
      IsEvent system entry.payload
  | stored {entry : OutboxEntry} (member : entry ∈ system.store.outbox) :
      IsEvent system entry.payload
  | held {worker : WorkerId} {snapshot : OutboxEntry}
      (member : snapshot ∈ (system.run worker).held) : IsEvent system snapshot.payload

/-- Every document and every event states the number of documents stored under its
identifier. -/
def BatchesConsistent (cfg : Config) (system : System) : Prop :=
  (∀ document ∈ system.store.metadata,
      document.messaging.filesInBatch = system.filesUnder document.messaging.correlationId) ∧
    ∀ payload, system.IsEvent payload → ∀ clock correlationId,
      messageData (buildDocumentUploadMessage cfg clock payload) "correlationId" =
          some (.str correlationId) →
        messageData (buildDocumentUploadMessage cfg clock payload) "filesInBatch" =
          some (.int (system.filesUnder correlationId))

/-- The callback, if it commits its documents, does so under a new identifier. -/
def OpensBatch (cfg : Config) (system : System) : Action → Prop
  | .callback env body =>
      (∃ documents, Accepted cfg env system.store body documents) → env.transactionFails = false →
        ∀ stored ∈ system.store.metadata,
          stored.messaging.correlationId ≠ callbackCorrelationId cfg env system.store body
  | _ => True

/-! ## Messages -/

theorem messageData_build (clock : MessageClock) (payload : MetadataDocument) :
    messageData (buildDocumentUploadMessage cfg clock payload) "correlationId" =
        some (.str payload.messaging.correlationId) ∧
      messageData (buildDocumentUploadMessage cfg clock payload) "filesInBatch" =
        some (.int payload.messaging.filesInBatch) := by
  constructor <;>
    simp [messageData, buildDocumentUploadMessage, Json.get?_ofProperties, List.lookup_cons]

/-! ## Events and documents -/

/-- A document stored under the identifier of the payload states the same number. -/
def Linked (system : System) (payload : MetadataDocument) : Prop :=
  ∃ document ∈ system.store.metadata,
    document.messaging.correlationId = payload.messaging.correlationId ∧
      document.messaging.filesInBatch = payload.messaging.filesInBatch

/-- Every event goes back to a created entry, whose document is stored. -/
structure EventsLinked (system : System) : Prop where
  created : ∀ entry ∈ createdEntries system.history, Linked system entry.payload
  stored : ∀ entry ∈ system.store.outbox,
    ∃ created ∈ createdEntries system.history, created.payload = entry.payload
  held : ∀ worker, ∀ snapshot ∈ (system.run worker).held,
    ∃ created ∈ createdEntries system.history, created.payload = snapshot.payload

theorem EventsLinked.linked (events : EventsLinked system) {payload : MetadataDocument}
    (isEvent : system.IsEvent payload) : Linked system payload := by
  cases isEvent with
  | created member => exact events.created _ member
  | stored member =>
      obtain ⟨created, found, same⟩ := events.stored _ member
      exact same ▸ events.created created found
  | held member =>
      obtain ⟨created, found, same⟩ := events.held _ _ member
      exact same ▸ events.created created found

theorem messaging_eq {fate : MetadataDocument → MetadataDocument} {new : List MetadataDocument}
    (spec : MetadataStep cfg system action next fate new) (document : MetadataDocument) :
    (fate document).messaging.correlationId = document.messaging.correlationId ∧
      (fate document).messaging.filesInBatch = document.messaging.filesInBatch := by
  rcases spec.each document with kept | ⟨time, published⟩
  · rw [kept]
    exact ⟨rfl, rfl⟩
  · rw [published]
    exact ⟨rfl, rfl⟩

theorem Linked.step {payload : MetadataDocument} (linked : Linked system payload)
    (edge : Edge cfg system action next) : Linked next payload := by
  obtain ⟨document, found, correlationId, filesInBatch⟩ := linked
  obtain ⟨fate, new, spec⟩ := metadataStep_of_edge edge
  obtain ⟨sameId, sameCount⟩ := messaging_eq spec document
  refine ⟨fate document, ?_, sameId.trans correlationId, sameCount.trans filesInBatch⟩
  rw [spec.metadata_eq]
  exact List.mem_append_left _ (List.mem_map_of_mem found)

/-- A callback records the entries it appends, whose payloads it has stored. -/
theorem Edge.appends {env : CallbackEnv} {body : Json}
    (edge : Edge cfg system (.callback env body) next) :
    ∃ new, next.store.outbox = system.store.outbox ++ new ∧
      createdEntries next.history = new ++ createdEntries system.history ∧
      ∀ entry ∈ new, entry.payload ∈ next.store.metadata := by
  cases edge with
  | callback past distinct fresh result effect =>
      clear result
      cases effect with
      | unchanged => exact ⟨[], by simp, by simp, by simp⟩
      | failed => exact ⟨[], by simp, by simp, by simp⟩
      | committed documents accepted =>
          refine ⟨createOutboxEntries env.now env.entryId (withIds env.documentId documents), rfl,
            ?_, fun entry member => ?_⟩
          · simp [commitDocuments, createdEntries_append, createdEntries_created]
          · obtain ⟨document, found, _, same⟩ := mem_createOutboxEntries member
            rw [same]
            exact List.mem_append_right _ found

theorem eventsLinked_step (coherent : Coherent system) (events : EventsLinked system)
    (edge : Edge cfg system action next) : EventsLinked next := by
  have kept {payload : MetadataDocument}
      (before : ∃ created ∈ createdEntries system.history, created.payload = payload) :
      ∃ created ∈ createdEntries next.history, created.payload = payload := by
    obtain ⟨created, found, same⟩ := before
    obtain ⟨recent, grows⟩ := edge.grows
    rw [grows, createdEntries_append]
    exact ⟨created, List.mem_append_right _ found, same⟩
  refine ⟨fun entry member => ?_, fun after member => ?_, fun worker snapshot holds => ?_⟩
  · by_cases isCallback : ∃ env body, action = .callback env body
    · obtain ⟨env, body, rfl⟩ := isCallback
      obtain ⟨new, _, created, stored⟩ := edge.appends
      rw [created] at member
      rcases List.mem_append.mp member with isNew | old
      · exact ⟨entry.payload, stored entry isNew, rfl, rfl⟩
      · exact (events.created entry old).step edge
    · rw [edge.createdEntries_eq fun env body same => isCallback ⟨env, body, same⟩] at member
      exact (events.created entry member).step edge
  · rcases edge.origin coherent.entryIds member with
      ⟨entry, stored, change⟩ | ⟨env, body, document, rfl, _, fresh⟩
    · rw [change.payload_eq]
      exact kept (events.stored entry stored)
    · obtain ⟨new, outbox, created, _⟩ := edge.appends
      rw [outbox] at member
      rw [created]
      rcases List.mem_append.mp member with old | isNew
      · exact absurd (coherent.issuedEntries after old) fresh
      · exact ⟨after, List.mem_append_left _ isNew, rfl⟩
  · rcases edge.held holds with ⟨before, _⟩ | ⟨now, held, entry, _, _, stored, _, rfl, _⟩
    · exact kept (events.held worker snapshot before)
    · exact kept (events.stored entry stored)

theorem Reachable.eventsLinked (reachable : Reachable cfg system) : EventsLinked system := by
  refine Reaches.induction (motive := EventsLinked) reachable ?_ ?_
  · refine ⟨?_, ?_, ?_⟩ <;> simp [System.initial, createdEntries, RunPhase.held]
  · intro before action after reached events accepted
    exact eventsLinked_step (Reachable.coherent reached) events (edge_of_step accepted)

/-- Events agree with the store as soon as the documents do. -/
theorem batchesConsistent_iff (reachable : Reachable cfg system) : BatchesConsistent cfg system ↔
    SizesStated (fun document : MetadataDocument => document.messaging.correlationId)
      (fun document => document.messaging.filesInBatch) system.store.metadata := by
  constructor
  · exact And.left
  · intro sizes
    refine ⟨sizes, fun payload isEvent clock correlationId carries => ?_⟩
    obtain ⟨document, found, sameId, sameCount⟩ := reachable.eventsLinked.linked isEvent
    obtain ⟨isId, isCount⟩ := @messageData_build cfg clock payload
    rw [isId, Option.some.injEq, Json.str.injEq] at carries
    rw [isCount, ← sameCount, ← carries, ← sameId]
    exact congrArg (fun count : Nat => some (Json.int count)) (sizes document found)

/-! ## Batches along a run -/

/-- The documents of a callback state their own number, under one identifier. -/
theorem sizesStated_commit_iff {env : CallbackEnv} {store : Store} {body : Json}
    {documents : List InboundDocument} (accepted : Accepted cfg env store body documents)
    (sizes : SizesStated (fun document : MetadataDocument => document.messaging.correlationId)
      (fun document => document.messaging.filesInBatch) store.metadata) :
    SizesStated (fun document : MetadataDocument => document.messaging.correlationId)
        (fun document => document.messaging.filesInBatch)
        (commitDocuments env store documents).metadata ↔
      ∀ stored ∈ store.metadata,
        stored.messaging.correlationId ≠ callbackCorrelationId cfg env store body := by
  refine sizesStated_append_iff sizes ?_ (fun document member => ?_) fun document member => ?_
  · intro none
    have length := congrArg List.length none
    rw [length_withIds, List.length_nil, List.length_eq_zero_iff] at length
    exact accepted.nonempty length
  · exact (accepted.document (inbound_of_mem_withIds member)).2.2.1
  · rw [length_withIds]
    exact (accepted.document (inbound_of_mem_withIds member)).2.2.2

/-- A callback that commits nothing leaves the documents alone. -/
theorem metadata_of_uncommitted {env : CallbackEnv} {store after : Store} {body : Json}
    (result : (uploadCallback cfg env store body).store = after)
    (effect : CallbackEffect cfg env store body after)
    (uncommitted : ¬ ((∃ documents, Accepted cfg env store body documents) ∧
      env.transactionFails = false)) : after.metadata = store.metadata := by
  cases effect with
  | unchanged => rfl
  | failed => rfl
  | committed documents accepted =>
      have fails : env.transactionFails = true := by
        by_contra succeeds
        exact uncommitted ⟨⟨documents, accepted⟩, by simpa using succeeds⟩
      rw [uploadCallback_of_accepted accepted, if_pos fails] at result
      rw [← result]

/-- A step keeps the batches consistent exactly when it opens a new one. -/
theorem batchesConsistent_step (reachable : Reachable cfg system)
    (consistent : BatchesConsistent cfg system) (accepted : system.step cfg action = some next) :
    BatchesConsistent cfg next ↔ OpensBatch cfg system action := by
  rw [batchesConsistent_iff (reachable.step accepted)]
  rw [batchesConsistent_iff reachable] at consistent
  have edge := edge_of_step accepted
  by_cases isCallback : ∃ env body, action = .callback env body
  · obtain ⟨env, body, rfl⟩ := isCallback
    cases edge with
    | callback past distinct fresh result effect =>
        rename_i after
        by_cases commits : (∃ documents, Accepted cfg env system.store body documents) ∧
            env.transactionFails = false
        · have opens : OpensBatch cfg system (.callback env body) ↔
              ∀ stored ∈ system.store.metadata,
                stored.messaging.correlationId ≠
                  callbackCorrelationId cfg env system.store body :=
            ⟨fun guard => guard commits.1 commits.2, fun new _ _ => new⟩
          obtain ⟨⟨documents, isAccepted⟩, succeeds⟩ := commits
          rw [uploadCallback_of_accepted isAccepted, succeeds] at result
          rw [opens, ← sizesStated_commit_iff isAccepted consistent]
          simp [← result]
        · have opens : OpensBatch cfg system (.callback env body) := fun accepts succeeds =>
            absurd ⟨accepts, succeeds⟩ commits
          have same : after.metadata = system.store.metadata :=
            metadata_of_uncommitted result effect commits
          simp only [same, opens, iff_true]
          exact consistent
  · obtain ⟨fate, new, spec⟩ := metadataStep_of_edge edge
    have nothing : new = [] := List.eq_nil_iff_forall_not_mem.mpr fun document member => by
      obtain ⟨_, env, body, acts⟩ := spec.created document member
      exact isCallback ⟨env, body, acts⟩
    have opens : OpensBatch cfg system action := by
      cases action with
      | callback env body => exact absurd ⟨env, body, rfl⟩ isCallback
      | _ => exact trivial
    simp only [opens, iff_true]
    rw [spec.metadata_eq, nothing, List.append_nil]
    exact consistent.map (fun document => (messaging_eq spec document).1)
      fun document => (messaging_eq spec document).2

/-- Throughout a run all documents and events state the number of documents under their
identifier, exactly when no callback of the run commits under one already in use. -/
theorem files_in_batch_consistent_iff {actions : List Action} {last : System}
    (run : runActions (System.step cfg) System.initial actions = some last) :
    Throughout (System.step cfg) (BatchesConsistent cfg) System.initial actions ↔
      EveryStep (System.step cfg) (OpensBatch cfg) System.initial actions := by
  refine throughout_iff_everyStep ?_ ?_ run
  · refine (batchesConsistent_iff (Reaches.refl _)).mpr ?_
    simp [SizesStated, System.initial]
  · intro state action next reached consistent accepted
    exact batchesConsistent_step reached consistent accepted

/-- The body of a callback that echoes the identifier of the journey, with the given form. -/
def Sample.journeyForm (form : List (String × Json)) : Json :=
  .obj
    [ ("uploadStatus", .str "ready"),
      ("metadata", .obj ((journeyIdKey, .str Sample.journeyId) ::
        (Sample.metadata "1733826312").entries)),
      ("form", .obj form) ]

/-- The callback of one upload of two files is committed. -/
def Sample.upload : List Action :=
  [ .initiate Sample.session,
    .callback (Sample.journeyEnv 1) (Sample.journeyForm
      [("document", Sample.file Sample.fileA), ("evidence", Sample.file Sample.fileB)]),
    .start "worker" ]

/-- The one callback of the sample run opens the only batch, of two files. -/
theorem files_in_batch_consistent_iff_sample :
    BatchesConsistent Sample.config (System.after Sample.config Sample.upload (by decide)) ∧
      ((System.after Sample.config Sample.upload (by decide)).store.metadata.map
        fun document => document.messaging.filesInBatch) = [2, 2] := by
  have run : runActions (System.step Sample.config) System.initial Sample.upload =
      some (System.after Sample.config Sample.upload (by decide)) := (Option.some_get _).symm
  refine ⟨(files_in_batch_consistent_iff run).mpr ?_ _ [] _ (List.append_nil _).symm run,
    by decide⟩
  refine everyStep_cons.mpr ⟨trivial, fun initiated accepted => ?_⟩
  refine everyStep_cons.mpr ⟨fun _ _ stored member => ?_, fun _ _ => ?_⟩
  · cases accepted
    cases member
  · exact everyStep_cons.mpr ⟨trivial, fun _ _ => everyStep_nil _⟩

/-- A further callback echoes the identifier of the journey, with another file. -/
def Sample.secondBody : Json := Sample.journeyForm [("document", Sample.file Sample.fileB)]

def Sample.twoUploads : List Action :=
  [ .initiate Sample.session, .callback (Sample.journeyEnv 1) (Sample.journeyBody "ready"),
    .callback (Sample.journeyEnv 3) Sample.secondBody ]

/-- Two documents are stored under the journey, and each states that there is one. -/
theorem Sample.two_uploads_inconsistent :
    Reachable Sample.config (System.after Sample.config Sample.twoUploads (by decide)) ∧
      ((System.after Sample.config Sample.twoUploads (by decide)).store.metadata.map
        fun document =>
          (document.messaging.correlationId, document.messaging.filesInBatch)) =
        [(Sample.journeyId, 1), (Sample.journeyId, 1)] ∧
      ¬ BatchesConsistent Sample.config
        (System.after Sample.config Sample.twoUploads (by decide)) := by
  refine ⟨Reachable.after _ _ _, by decide, fun consistent => ?_⟩
  have understated : ∃ document ∈
      (System.after Sample.config Sample.twoUploads (by decide)).store.metadata,
        document.messaging.filesInBatch ≠
          (System.after Sample.config Sample.twoUploads (by decide)).filesUnder
            document.messaging.correlationId := by decide
  obtain ⟨document, found, differs⟩ := understated
  exact differs (consistent.1 document found)

end ObjectProcessor
