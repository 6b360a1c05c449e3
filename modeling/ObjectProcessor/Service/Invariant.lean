import ObjectProcessor.Service.Entries

/-!
# Basic invariants of the service

Identifiers are unique and have been issued, files are stored once, a worker
holds snapshots of entries it claimed, and its clock readings lie in the past.
-/

namespace ObjectProcessor

open Library

/-! ## Documents -/

/-- The document once it has been published. -/
def MetadataDocument.publishedOn (time : Time) (document : MetadataDocument) : MetadataDocument :=
  { document with messaging := { document.messaging with publishedAt := some time } }

/-- The metadata after a step: documents stay, some are published, new ones follow. -/
structure MetadataStep (cfg : Config) (system : System) (action : Action) (next : System)
    (fate : MetadataDocument → MetadataDocument) (new : List MetadataDocument) : Prop where
  metadata_eq : next.store.metadata = system.store.metadata.map fate ++ new
  each : ∀ document, fate document = document ∨ ∃ time, fate document = document.publishedOn time
  created : ∀ document ∈ new, document.messaging.publishedAt = none ∧
    ∃ env body, action = .callback env body
  newIds : UniqueBy MetadataDocument.id new
  newFiles : UniqueBy MetadataDocument.fileId new
  issued : ∀ document ∈ new, document.id ∉ system.issued ∧ document.id ∈ next.issued
  newFile : ∀ document ∈ new, ∀ stored ∈ system.store.metadata, stored.fileId ≠ document.fileId

theorem MetadataStep.unchanged {cfg : Config} {system next : System} {action : Action}
    (same : next.store.metadata = system.store.metadata) :
    MetadataStep cfg system action next id [] where
  metadata_eq := by simp [same]
  each := fun _ => Or.inl rfl
  created := by simp
  newIds := List.nodup_nil
  newFiles := List.nodup_nil
  issued := by simp
  newFile := by simp

namespace MetadataStep

variable {cfg : Config} {system next : System} {action : Action}
  {fate : MetadataDocument → MetadataDocument} {new : List MetadataDocument}

theorem id_eq (spec : MetadataStep cfg system action next fate new)
    (document : MetadataDocument) : (fate document).id = document.id := by
  rcases spec.each document with kept | ⟨time, published⟩
  · rw [kept]
  · rw [published]
    rfl

theorem file_eq (spec : MetadataStep cfg system action next fate new)
    (document : MetadataDocument) : (fate document).file = document.file := by
  rcases spec.each document with kept | ⟨time, published⟩
  · rw [kept]
  · rw [published]
    rfl

/-- A published document stays published. -/
theorem published (spec : MetadataStep cfg system action next fate new)
    {document : MetadataDocument} (isPublished : document.messaging.publishedAt.isSome = true) :
    (fate document).messaging.publishedAt.isSome = true := by
  rcases spec.each document with kept | ⟨time, published⟩
  · rwa [kept]
  · rw [published]
    rfl

theorem fileId_eq (spec : MetadataStep cfg system action next fate new)
    (document : MetadataDocument) : (fate document).fileId = document.fileId := by
  rw [MetadataDocument.fileId, spec.file_eq, MetadataDocument.fileId]

theorem mem_fate (spec : MetadataStep cfg system action next fate new)
    {document : MetadataDocument} (stored : document ∈ system.store.metadata) :
    fate document ∈ next.store.metadata := by
  rw [spec.metadata_eq]
  exact List.mem_append_left _ (List.mem_map_of_mem stored)

/-- A stored document was stored before, or is new. -/
theorem mem_cases (spec : MetadataStep cfg system action next fate new)
    {document : MetadataDocument} (stored : document ∈ next.store.metadata) :
    (∃ before ∈ system.store.metadata, fate before = document) ∨ document ∈ new := by
  rw [spec.metadata_eq] at stored
  exact (List.mem_append.mp stored).imp_left List.mem_map.mp

end MetadataStep

/-- Committed documents are new in every respect. -/
theorem metadataStep_of_committed {cfg : Config} {system next : System} {env : CallbackEnv}
    {body : Json} {documents : List InboundDocument}
    (distinct : (System.generatedIds env body).Nodup)
    (fresh : ∀ id ∈ System.generatedIds env body, id ∉ system.issued)
    (accepted : Accepted cfg env system.store body documents)
    (stored : next.store = commitDocuments env system.store documents)
    (issued : next.issued = System.generatedIds env body ++ system.issued) :
    MetadataStep cfg system (.callback env body) next id (withIds env.documentId documents) where
  metadata_eq := by simp [stored, commitDocuments]
  each := fun _ => Or.inl rfl
  created := by
    intro document member
    exact ⟨(accepted.document (inbound_of_mem_withIds member)).2.1, env, body, rfl⟩
  newIds := by
    rw [generatedIds_eq accepted] at distinct
    exact (List.nodup_append.mp distinct).1
  newFiles := by
    have files := map_withIds (fun document => document.file.fileId) env.documentId documents
    rw [UniqueBy, show MetadataDocument.fileId = fun document => document.file.fileId from rfl,
      files]
    exact accepted.distinct
  issued := by
    intro document member
    have generated : document.id ∈ System.generatedIds env body := by
      rw [generatedIds_eq accepted]
      exact List.mem_append_left _ (List.mem_map_of_mem member)
    exact ⟨fresh _ generated, by rw [issued]; exact List.mem_append_left _ generated⟩
  newFile := by
    intro document member
    exact accepted.fresh _ (inbound_of_mem_withIds member)

/-- A committed finalisation dates the documents of the entries it has sent. -/
theorem Edge.dates {cfg : Config} {system next : System} {worker : WorkerId} {times : List Time}
    {publishedAt : Time} (edge : Edge cfg system (.finalize worker times publishedAt) next) :
    ∃ batch results rest since result,
      system.run worker = .finalizing batch results rest since ∧
      result = system.finalization cfg worker batch results times publishedAt ∧
      next.store.outbox = result.outbox ∧
      ∃ change, MetadataStep cfg system (.finalize worker times publishedAt) next change [] ∧
        ∀ document, (change document).messaging.publishedAt.isSome = true ↔
          document.messaging.publishedAt.isSome = true ∨
            EntryId.file document.fileId ∈ result.finalizedSuccessful.map getEntryId := by
  cases edge with
  | finalize phase past commits =>
      rename_i batch results rest since result
      refine ⟨batch, results, rest, since, result, phase, commits, rfl, ?_⟩
      by_cases nothing : result.finalizedSuccessful = []
      · refine ⟨id, .unchanged ?_, by simp [nothing]⟩
        subst commits
        exact if_pos nothing
      · refine ⟨fun document =>
          if EntryId.file document.fileId ∈ result.finalizedSuccessful.map getEntryId then
            document.publishedOn publishedAt else document, ⟨?_, ?_, by simp, List.nodup_nil,
          List.nodup_nil, by simp, by simp⟩, ?_⟩
        · have updated : result.metadata = bulkUpdatePublishedAtDate
              (result.finalizedSuccessful.map getEntryId) publishedAt system.store.metadata := by
            subst commits
            exact if_neg nothing
          simp only [System.setRun, System.record, List.append_nil, updated,
            bulkUpdatePublishedAtDate, updateMany, decide_eq_true_eq]
          rfl
        · intro document
          split
          · exact Or.inr ⟨publishedAt, rfl⟩
          · exact Or.inl rfl
        · intro document
          by_cases named :
            EntryId.file document.fileId ∈ result.finalizedSuccessful.map getEntryId
          · simp only [named, ↓reduceIte, or_true, iff_true]
            rfl
          · simp only [named, ↓reduceIte, or_false]

theorem metadataStep_of_edge {cfg : Config} {system next : System} {action : Action}
    (edge : Edge cfg system action next) :
    ∃ fate new, MetadataStep cfg system action next fate new := by
  have isEdge := edge
  cases edge with
  | tick => exact ⟨_, _, .unchanged rfl⟩
  | initiate => exact ⟨_, _, .unchanged rfl⟩
  | start => exact ⟨_, _, .unchanged rfl⟩
  | claim => exact ⟨_, _, .unchanged rfl⟩
  | claimsDone => exact ⟨_, _, .unchanged rfl⟩
  | publish => exact ⟨_, _, .unchanged rfl⟩
  | report => exact ⟨_, _, .unchanged rfl⟩
  | abandon => exact ⟨_, _, .unchanged rfl⟩
  | expire => exact ⟨_, _, .unchanged rfl⟩
  | callback past distinct fresh result effect =>
      clear result
      cases effect with
      | unchanged => exact ⟨_, _, .unchanged rfl⟩
      | failed => exact ⟨_, _, .unchanged rfl⟩
      | committed documents accepted =>
          exact ⟨_, _, metadataStep_of_committed distinct fresh accepted rfl rfl⟩
  | finalize =>
      obtain ⟨_, _, _, _, _, _, _, _, change, spec, _⟩ := isEdge.dates
      exact ⟨change, [], spec⟩

/-! ## Held claims -/

/-- A worker holds what it held before, or the snapshot of the entry it just claimed. -/
theorem Edge.held {cfg : Config} {system next : System} {action : Action}
    (edge : Edge cfg system action next) {worker : WorkerId} {snapshot : OutboxEntry}
    (holds : snapshot ∈ (next.run worker).held) :
    (snapshot ∈ (system.run worker).held ∧ action ≠ .start worker) ∨
      ∃ now held entry, action = .claim worker entry.id ∧
        system.run worker = .claiming now held ∧ entry ∈ system.store.outbox ∧
        isProcessable cfg now entry = true ∧ snapshot = claimUpdate cfg worker now entry ∧
        next.history = .claimed worker entry.id (entry.attempts + 1) :: system.history := by
  obtain ⟨events, grows, moves⟩ := edge.runStep worker
  generalize system.run worker = before, next.run worker = after at moves holds ⊢
  cases moves with
  | other apart => exact Or.inl ⟨holds, fun starts => apart (starts ▸ rfl)⟩
  | start => cases holds
  | claim member processable =>
      rename_i now held entry
      rcases List.mem_append.mp holds with old | new
      · exact Or.inl ⟨old, by simp⟩
      · exact Or.inr ⟨now, held, entry, rfl, rfl, member, processable,
          List.mem_singleton.mp new, grows⟩
  | claimsDone =>
      refine Or.inl ⟨?_, by simp⟩
      split at holds
      · cases holds
      · exact holds
  | publish =>
      refine Or.inl ⟨?_, by simp⟩
      rwa [RunPhase.held, List.take_append_drop] at holds
  | finalize => exact Or.inl ⟨List.mem_append_right _ holds, by simp⟩
  | report =>
      refine Or.inl ⟨?_, by simp⟩
      split at holds
      · cases holds
      · exact holds
  | abandon => cases holds

/-! ## The invariant -/

structure Coherent (system : System) : Prop where
  entryIds : UniqueBy OutboxEntry.id system.store.outbox
  documentIds : UniqueBy MetadataDocument.id system.store.metadata
  fileIds : UniqueBy MetadataDocument.fileId system.store.metadata
  issuedEntries : ∀ entry ∈ system.store.outbox, entry.id ∈ system.issued
  issuedDocuments : ∀ document ∈ system.store.metadata, document.id ∈ system.issued
  issuedHeld : ∀ worker, ∀ snapshot ∈ (system.run worker).held, snapshot.id ∈ system.issued
  /-- The time a claim loop captured lies in the past. -/
  readings : ∀ worker now held, system.run worker = .claiming now held → now ≤ system.clock

theorem coherent_initial : Coherent System.initial where
  entryIds := List.nodup_nil
  documentIds := List.nodup_nil
  fileIds := List.nodup_nil
  issuedEntries := by simp [System.initial]
  issuedDocuments := by simp [System.initial]
  issuedHeld := by simp [System.initial, RunPhase.held]
  readings := by simp [System.initial]

theorem Edge.issued {cfg : Config} {system next : System} {action : Action}
    (edge : Edge cfg system action next) {id : ObjectId} (member : id ∈ system.issued) :
    id ∈ next.issued := by
  cases edge with
  | callback => exact List.mem_append_right _ member
  | _ => exact member

theorem Edge.clock {cfg : Config} {system next : System} {action : Action}
    (edge : Edge cfg system action next) : system.clock ≤ next.clock := by
  cases edge with
  | tick later => exact later
  | _ => exact Nat.le_refl _

/-- A claim loop keeps the reading it started with, the clock at that moment. -/
theorem Edge.reading {cfg : Config} {system next : System} {action : Action}
    (edge : Edge cfg system action next) {worker : WorkerId} {now : Time}
    {held : List OutboxEntry} (phase : next.run worker = .claiming now held) :
    (∃ earlier, system.run worker = .claiming now earlier) ∨ now = system.clock := by
  obtain ⟨events, _, moves⟩ := edge.runStep worker
  rw [phase] at moves
  generalize system.run worker = before at moves ⊢
  generalize reached : RunPhase.claiming now held = after at moves
  cases moves with
  | other => exact Or.inl ⟨held, reached.symm⟩
  | start =>
      cases reached
      exact Or.inr rfl
  | claim =>
      cases reached
      exact Or.inl ⟨_, rfl⟩
  | claimsDone => split at reached <;> cases reached
  | report => split at reached <;> cases reached
  | _ => cases reached

theorem coherent_step {cfg : Config} {system next : System} {action : Action}
    (coherent : Coherent system) (edge : Edge cfg system action next) : Coherent next := by
  obtain ⟨fate, remains, new, entries⟩ := outboxStep_of_edge coherent.entryIds edge
  obtain ⟨change, inserted, documents⟩ := metadataStep_of_edge edge
  have keptIds : ((system.store.outbox.filter remains).map fate).map OutboxEntry.id =
      (system.store.outbox.filter remains).map OutboxEntry.id := by
    rw [List.map_map]
    exact List.map_congr_left fun entry member =>
      (entries.each entry (List.mem_filter.mp member).1).id_eq
  have keptDocumentIds : (system.store.metadata.map change).map MetadataDocument.id =
      system.store.metadata.map MetadataDocument.id := by
    rw [List.map_map]
    exact List.map_congr_left fun document _ => documents.id_eq document
  have keptFileIds : (system.store.metadata.map change).map MetadataDocument.fileId =
      system.store.metadata.map MetadataDocument.fileId := by
    rw [List.map_map]
    exact List.map_congr_left fun document _ => documents.fileId_eq document
  refine ⟨?_, ?_, ?_, ?_, ?_, ?_, ?_⟩
  · have old : UniqueBy OutboxEntry.id ((system.store.outbox.filter remains).map fate) := by
      rw [UniqueBy, keptIds]
      exact coherent.entryIds.filter remains
    rw [entries.outbox_eq]
    refine old.append entries.newIds fun entry isNew stored isOld same => ?_
    have wasIssued : stored.id ∈ system.issued := by
      have member : stored.id ∈ ((system.store.outbox.filter remains).map fate).map
          OutboxEntry.id := List.mem_map_of_mem isOld
      rw [keptIds] at member
      obtain ⟨before, kept, equal⟩ := List.mem_map.mp member
      exact equal ▸ coherent.issuedEntries before (List.mem_filter.mp kept).1
    exact (entries.issued entry isNew).1 (same ▸ wasIssued)
  · have old : UniqueBy MetadataDocument.id (system.store.metadata.map change) := by
      rw [UniqueBy, keptDocumentIds]
      exact coherent.documentIds
    rw [documents.metadata_eq]
    refine old.append documents.newIds fun document isNew stored isOld same => ?_
    obtain ⟨before, member, rfl⟩ := List.mem_map.mp isOld
    rw [documents.id_eq] at same
    exact (documents.issued document isNew).1 (same ▸ coherent.issuedDocuments before member)
  · have old : UniqueBy MetadataDocument.fileId (system.store.metadata.map change) := by
      rw [UniqueBy, keptFileIds]
      exact coherent.fileIds
    rw [documents.metadata_eq]
    refine old.append documents.newFiles fun document isNew stored isOld same => ?_
    obtain ⟨before, member, rfl⟩ := List.mem_map.mp isOld
    rw [documents.fileId_eq] at same
    exact documents.newFile document isNew before member same
  · intro entry member
    rw [entries.outbox_eq] at member
    rcases List.mem_append.mp member with isOld | isNew
    · obtain ⟨before, kept, rfl⟩ := List.mem_map.mp isOld
      have stored := (List.mem_filter.mp kept).1
      rw [(entries.each before stored).id_eq]
      exact edge.issued (coherent.issuedEntries before stored)
    · exact (entries.issued entry isNew).2
  · intro document member
    rw [documents.metadata_eq] at member
    rcases List.mem_append.mp member with isOld | isNew
    · obtain ⟨before, stored, rfl⟩ := List.mem_map.mp isOld
      rw [documents.id_eq]
      exact edge.issued (coherent.issuedDocuments before stored)
    · exact (documents.issued document isNew).2
  · intro worker snapshot holds
    rcases edge.held holds with ⟨before, _⟩ | ⟨now, held, entry, _, _, member, _, rfl, _⟩
    · exact edge.issued (coherent.issuedHeld worker snapshot before)
    · exact edge.issued (coherent.issuedEntries entry member)
  · intro worker now held phase
    rcases edge.reading phase with ⟨earlier, before⟩ | rfl
    · exact Nat.le_trans (coherent.readings worker now earlier before) edge.clock
    · exact edge.clock

/-- Every reachable state is coherent. -/
theorem Reachable.coherent {cfg : Config} {system : System} (reachable : Reachable cfg system) :
    Coherent system :=
  Reaches.invariant reachable coherent_initial fun _ _ _ holds accepted =>
    coherent_step holds (edge_of_step accepted)

/-- A step from a reachable state leads to a reachable state. -/
theorem Reachable.step {cfg : Config} {system next : System} (reachable : Reachable cfg system)
    {action : Action} (accepted : system.step cfg action = some next) : Reachable cfg next :=
  Reaches.tail reachable accepted

theorem Reachable.reaches {cfg : Config} {system later : System} (reachable : Reachable cfg system)
    (reach : Reaches (System.step cfg) system later) : Reachable cfg later :=
  Reaches.trans reachable reach

/-- An entry that was given up is never touched again. -/
theorem Edge.permanentFailure {cfg : Config} {system next : System} {action : Action}
    (edge : Edge cfg system action next) (coherent : Coherent system) {entry : OutboxEntry}
    (stored : entry ∈ system.store.outbox) (givenUp : entry.status = .permanentFailure) :
    entry ∈ next.store.outbox := by
  rcases edge.entry coherent.entryIds stored with ⟨after, stays, change⟩ | ⟨sent, _⟩
  · rwa [← change.eq_of_closed (by simp [OutboxEntry.isOpen, givenUp])]
  · rw [givenUp] at sent
    cases sent

theorem Reachable.permanentFailure {cfg : Config} {system later : System}
    (reachable : Reachable cfg system) (reach : Reaches (System.step cfg) system later)
    {entry : OutboxEntry} (stored : entry ∈ system.store.outbox)
    (givenUp : entry.status = .permanentFailure) : entry ∈ later.store.outbox :=
  reach.induction stored fun _ _ _ reached holds accepted =>
    (edge_of_step accepted).permanentFailure (reachable.reaches reached).coherent holds givenUp

end ObjectProcessor
