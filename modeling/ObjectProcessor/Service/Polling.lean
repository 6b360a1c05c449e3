import Mathlib.Data.List.Chain
import ObjectProcessor.Service.Agreement
import ObjectProcessor.Status.Verdict

/-!
# Polling the verdict

The reads of a poll take effect one after the other, and the service may take any
steps between them.  Sessions and status records are only ever appended, so what a
poll has found a later one finds again; whatever a poll says of a delivery rests on
the entry, which agrees with the document at every moment.
-/

namespace ObjectProcessor

open Library

/-! ## What only grows -/

section Growth

variable {cfg : Config} {system next later : System}

theorem Edge.sessions {action : Action} (edge : Edge cfg system action next) :
    system.store.sessions <+: next.store.sessions := by
  cases edge with
  | initiate => exact List.prefix_append ..
  | callback past distinct fresh result effect =>
      clear result
      cases effect <;> exact List.prefix_refl _
  | _ => exact List.prefix_refl _

theorem Edge.status {action : Action} (edge : Edge cfg system action next) :
    system.store.status <+: next.store.status := by
  cases edge with
  | callback past distinct fresh result effect =>
      clear result
      cases effect with
      | unchanged => exact List.prefix_refl _
      | failed => exact List.prefix_append ..
      | committed => exact List.prefix_append ..
  | _ => exact List.prefix_refl _

theorem sessions_of_reaches (reach : Reaches (System.step cfg) system later) :
    system.store.sessions <+: later.store.sessions :=
  Reaches.induction (motive := fun state => system.store.sessions <+: state.store.sessions) reach
    (List.prefix_refl _) fun _ _ _ _ grown accepted =>
      grown.trans (edge_of_step accepted).sessions

theorem status_of_reaches (reach : Reaches (System.step cfg) system later) :
    system.store.status <+: later.store.status :=
  Reaches.induction (motive := fun state => system.store.status <+: state.store.status) reach
    (List.prefix_refl _) fun _ _ _ _ grown accepted =>
      grown.trans (edge_of_step accepted).status

/-- The journey of an upload stays once it is known. -/
theorem journeyOf_of_reaches (reach : Reaches (System.step cfg) system later) {uploadId : Json}
    {journeyId : String} (session : journeyOf system.store.sessions uploadId = some journeyId) :
    journeyOf later.store.sessions uploadId = some journeyId := by
  obtain ⟨new, grown⟩ := sessions_of_reaches reach
  obtain ⟨found, _⟩ := Option.filter_eq_some_iff.mp session
  obtain ⟨stored, isStored, _⟩ := Option.bind_eq_some_iff.mp found
  have same : getSessionByUploadId later.store.sessions uploadId =
      getSessionByUploadId system.store.sessions uploadId := by
    rw [← grown, getSessionByUploadId, List.find?_append]
    simp only [getSessionByUploadId] at isStored ⊢
    rw [isStored, Option.some_or]
  rwa [journeyOf, same]

end Growth

/-! ## Recorded files -/

/-- Every validated record was written together with the document of its file. -/
def FilesRecorded (system : System) : Prop :=
  ∀ record ∈ system.store.status, record.validated = true →
    ∃ document ∈ system.store.metadata, document.fileId = record.fileId ∧
      document.messaging.correlationId = record.correlationId

theorem MetadataStep.correlationId_eq {cfg : Config} {system next : System} {action : Action}
    {fate : MetadataDocument → MetadataDocument} {new : List MetadataDocument}
    (spec : MetadataStep cfg system action next fate new) (document : MetadataDocument) :
    (fate document).messaging.correlationId = document.messaging.correlationId := by
  rcases spec.each document with kept | ⟨time, published⟩
  · rw [kept]
  · rw [published]
    rfl

/-- A document keeps its file and its journey. -/
theorem Edge.document {cfg : Config} {system next : System} {action : Action}
    (edge : Edge cfg system action next) {document : MetadataDocument}
    (stored : document ∈ system.store.metadata) :
    ∃ after ∈ next.store.metadata, after.fileId = document.fileId ∧
      after.messaging.correlationId = document.messaging.correlationId := by
  obtain ⟨fate, new, documents⟩ := metadataStep_of_edge edge
  refine ⟨fate document, ?_, documents.fileId_eq document, documents.correlationId_eq document⟩
  rw [documents.metadata_eq]
  exact List.mem_append_left _ (List.mem_map_of_mem stored)

/-- The records a step adds are failures, or come with their documents. -/
theorem Edge.newRecord {cfg : Config} {system next : System} {action : Action}
    (edge : Edge cfg system action next) {record : StatusRecord}
    (member : record ∈ next.store.status) (validated : record.validated = true) :
    record ∈ system.store.status ∨ ∃ document ∈ next.store.metadata,
      document.fileId = record.fileId ∧
        document.messaging.correlationId = record.correlationId := by
  cases edge with
  | callback past distinct fresh result effect =>
      rename_i env body after
      clear result
      cases effect with
      | unchanged => exact Or.inl member
      | failed error written =>
          rcases List.mem_append.mp member with old | new
          · exact Or.inl old
          · obtain ⟨fileId, _, rfl⟩ := List.mem_map.mp (List.mem_of_mem_take new)
            cases validated
      | committed documents accepted =>
          rcases List.mem_append.mp member with old | new
          · exact Or.inl old
          · obtain ⟨document, isNew, rfl⟩ := List.mem_map.mp new
            have built := map_withIds id env.documentId documents
            rw [List.map_id] at built
            rw [← built] at isNew
            obtain ⟨stored, inserted, rfl⟩ := List.mem_map.mp isNew
            exact Or.inr ⟨stored, List.mem_append_right _ inserted, rfl, rfl⟩
  | _ => exact Or.inl member

theorem filesRecorded_step {cfg : Config} {system next : System} {action : Action}
    (recorded : FilesRecorded system) (edge : Edge cfg system action next) :
    FilesRecorded next := by
  intro record member validated
  rcases edge.newRecord member validated with old | new
  · obtain ⟨document, stored, file, journey⟩ := recorded record old validated
    obtain ⟨after, stays, sameFile, sameJourney⟩ := edge.document stored
    exact ⟨after, stays, sameFile.trans file, sameJourney.trans journey⟩
  · exact new

theorem Reachable.filesRecorded {cfg : Config} {system : System}
    (reachable : Reachable cfg system) : FilesRecorded system :=
  Reaches.invariant reachable (by simp [FilesRecorded, System.initial]) fun _ _ _ holds accepted =>
    filesRecorded_step holds (edge_of_step accepted)

/-! ## Polls -/

/-- The states in which the reads of a poll take effect, in their order. -/
structure Poll (cfg : Config) where
  session : System
  status : System
  metadata : System
  outbox : System
  reachable : Reachable cfg session
  sessionStatus : Reaches (System.step cfg) session status
  statusMetadata : Reaches (System.step cfg) status metadata
  metadataOutbox : Reaches (System.step cfg) metadata outbox

namespace Poll

variable {cfg : Config}

def verdict (poll : Poll cfg) (uploadId : Json) : LocalVerdict :=
  getLocalVerdictByUploadId cfg poll.session.store.sessions poll.status.store.status
    poll.metadata.store.metadata poll.outbox.store.outbox uploadId

/-- The earlier poll has ended when the later one starts. -/
def Before (earlier later : Poll cfg) : Prop :=
  Reaches (System.step cfg) earlier.outbox later.session

/-- The journey of the upload has fewer records than the poll reads at most. -/
def FewRecords (poll : Poll cfg) (uploadId : Json) : Prop :=
  ∀ journeyId, journeyOf poll.session.store.sessions uploadId = some journeyId →
    ObjectProcessor.FewRecords cfg poll.status.store.status journeyId

/-- A poll no step of the service interrupts. -/
def atOnce {system : System} (reachable : Reachable cfg system) : Poll cfg where
  session := system
  status := system
  metadata := system
  outbox := system
  reachable := reachable
  sessionStatus := .refl system
  statusMetadata := .refl system
  metadataOutbox := .refl system

theorem reachable_status (poll : Poll cfg) : Reachable cfg poll.status :=
  poll.reachable.reaches poll.sessionStatus

theorem reachable_metadata (poll : Poll cfg) : Reachable cfg poll.metadata :=
  poll.reachable_status.reaches poll.statusMetadata

theorem reachable_outbox (poll : Poll cfg) : Reachable cfg poll.outbox :=
  poll.reachable_metadata.reaches poll.metadataOutbox

theorem statusOutbox (poll : Poll cfg) : Reaches (System.step cfg) poll.status poll.outbox :=
  poll.statusMetadata.trans poll.metadataOutbox

theorem case (poll : Poll cfg) (uploadId : Json) :
    VerdictCase cfg poll.session.store.sessions poll.status.store.status
      poll.metadata.store.metadata poll.outbox.store.outbox uploadId (poll.verdict uploadId) :=
  getLocalVerdictByUploadId_case ..

end Poll

instance {cfg : Config} : Trans (@Poll.Before cfg) (@Poll.Before cfg) (@Poll.Before cfg) where
  trans {_ middle _} left right :=
    left.trans (middle.sessionStatus.trans (middle.statusOutbox.trans right))

end ObjectProcessor
