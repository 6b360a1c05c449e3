import ObjectProcessor.Service.Invariant

/-!
# The metadata collection and the outbox agree

Every document has one entry, and is dated exactly when that entry is sent or was
sent and expired.  The worker joins the two collections by file, so the invariant
also says that no two entries concern one file, and that the snapshots a worker
holds name the files of the stored entries.
-/

namespace ObjectProcessor

open Library

/-- The entries created so far, the latest first. -/
def createdEntries (history : List Event) : List OutboxEntry :=
  history.filterMap fun event =>
    match event with
    | .created entry => some entry
    | _ => none

/-- The document has its entry in the outbox, or its entry was sent and expired. -/
def Covered (system : System) (document : MetadataDocument) : Prop :=
  (∃ entry ∈ system.store.outbox,
    entry.messageId = document.id ∧ entry.fileId = document.fileId) ∨
  ∃ entry, .expired entry ∈ system.history ∧ entry.status = .sent ∧
    entry.messageId = document.id ∧ entry.fileId = document.fileId ∧
    document.messaging.publishedAt.isSome = true

structure Agreement (system : System) : Prop where
  entryFiles : UniqueBy OutboxEntry.fileId system.store.outbox
  truthyFiles : ∀ entry ∈ system.store.outbox, entry.fileId.truthy = true
  linked : ∀ entry ∈ system.store.outbox, ∃ document ∈ system.store.metadata,
    document.id = entry.messageId ∧ document.fileId = entry.fileId
  covered : ∀ document ∈ system.store.metadata, Covered system document
  dated : ∀ entry ∈ system.store.outbox, ∀ document ∈ system.store.metadata,
    document.fileId = entry.fileId →
      (document.messaging.publishedAt.isSome = true ↔ entry.status = .sent)
  createdFiles : UniqueBy OutboxEntry.fileId (createdEntries system.history)
  createdStored : ∀ entry ∈ createdEntries system.history,
    ∃ document ∈ system.store.metadata, document.fileId = entry.fileId
  createdAll : ∀ entry ∈ system.store.outbox, ∃ created ∈ createdEntries system.history,
    created.id = entry.id ∧ created.fileId = entry.fileId

/-- The snapshots a worker holds carry the payload of the stored entry. -/
def SnapshotsAgree (system : System) : Prop :=
  ∀ worker, ∀ snapshot ∈ (system.run worker).held, ∀ entry ∈ system.store.outbox,
    entry.id = snapshot.id → entry.payload = snapshot.payload

theorem snapshotsAgree_step {cfg : Config} {system next : System} {action : Action}
    (coherent : Coherent system) (agree : SnapshotsAgree system)
    (edge : Edge cfg system action next) : SnapshotsAgree next := by
  intro worker snapshot holds after member same
  rcases edge.origin coherent.entryIds member with
    ⟨entry, stored, change⟩ | ⟨env, body, document, _, _, fresh⟩
  · rw [change.payload_eq]
    rw [change.id_eq] at same
    rcases edge.held holds with ⟨before, _⟩ | ⟨now, held, claimed, _, _, isStored, _, rfl, _⟩
    · exact agree worker snapshot before entry stored same
    · have equal : entry = claimed := coherent.entryIds.eq_of_key stored isStored same
      rw [equal]
      rfl
  · rcases edge.held holds with ⟨before, _⟩ | ⟨now, held, claimed, _, _, isStored, _, rfl, _⟩
    · exact absurd (coherent.issuedHeld worker snapshot before) (same ▸ fresh)
    · exact absurd (coherent.issuedEntries claimed isStored) (same ▸ fresh)

theorem createdEntries_append (events history : List Event) :
    createdEntries (events ++ history) = createdEntries events ++ createdEntries history :=
  List.filterMap_append

theorem createdEntries_created (entries : List OutboxEntry) :
    createdEntries (entries.map .created) = entries := by
  rw [createdEntries, List.filterMap_map]
  exact List.filterMap_some

theorem createdEntries_eq_nil {events : List Event}
    (none : ∀ event ∈ events, ∀ entry, event ≠ .created entry) : createdEntries events = [] := by
  refine List.filterMap_eq_nil_iff.mpr fun event member => ?_
  cases event with
  | created entry => exact absurd rfl (none _ member entry)
  | _ => rfl

/-- Only a callback creates entries. -/
theorem Edge.createdEntries_eq {cfg : Config} {system next : System} {action : Action}
    (edge : Edge cfg system action next) (other : ∀ env body, action ≠ .callback env body) :
    createdEntries next.history = createdEntries system.history := by
  cases edge with
  | tick => rfl
  | initiate => rfl
  | claimsDone => rfl
  | abandon => rfl
  | start => rfl
  | claim => rfl
  | publish => rfl
  | expire => rfl
  | callback => exact absurd rfl (other _ _)
  | report =>
      rename_i worker failed rest phase
      show createdEntries (_ ++ system.history) = _
      rw [createdEntries_append, createdEntries_eq_nil, List.nil_append]
      simp
  | finalize =>
      rename_i worker times publishedAt batch results rest since result phase past commits
      show createdEntries (finalizationEvents worker result ++ system.history) = _
      rw [createdEntries_append, createdEntries_eq_nil, List.nil_append]
      rintro event member entry rfl
      rcases mem_finalizationEvents.mp member with ⟨_, _, same⟩ | ⟨_, _, same⟩ <;> cases same

/-- Agreement needs an argument only for what a step does to documents and to
their entries. -/
theorem Agreement.of_steps {cfg : Config} {system next : System} {action : Action}
    (coherent : Coherent system) (agreement : Agreement system)
    (edge : Edge cfg system action next) (other : ∀ env body, action ≠ .callback env body)
    {change : MetadataDocument → MetadataDocument}
    (documents : MetadataStep cfg system action next change [])
    (dated : ∀ document ∈ system.store.metadata, ∀ entry ∈ system.store.outbox,
      document.fileId = entry.fileId →
      (document.messaging.publishedAt.isSome = true ↔ entry.status = .sent) →
      ∀ after ∈ next.store.outbox, EntryStep cfg system action next entry after →
        ((change document).messaging.publishedAt.isSome = true ↔ after.status = .sent))
    (expires : ∀ entry ∈ system.store.outbox, action = .expire entry.id →
      .expired entry ∈ next.history) : Agreement next := by
  have origin {after : OutboxEntry} (member : after ∈ next.store.outbox) :
      ∃ entry ∈ system.store.outbox, EntryStep cfg system action next entry after := by
    rcases edge.origin coherent.entryIds member with found | ⟨env, body, _, acts, _⟩
    · exact found
    · exact absurd acts (other env body)
  have created := edge.createdEntries_eq other
  have metadata_eq : next.store.metadata = system.store.metadata.map change := by
    rw [documents.metadata_eq, List.append_nil]
  refine ⟨?_, ?_, ?_, ?_, ?_, ?_, ?_, ?_⟩
  · obtain ⟨fate, remains, new, entries⟩ := outboxStep_of_edge coherent.entryIds edge
    have nothing : new = [] := List.eq_nil_iff_forall_not_mem.mpr fun entry member => by
      obtain ⟨env, body, _, acts, _⟩ := entries.created entry member
      exact other env body acts
    have kept : ((system.store.outbox.filter remains).map fate).map OutboxEntry.fileId =
        (system.store.outbox.filter remains).map OutboxEntry.fileId := by
      rw [List.map_map]
      exact List.map_congr_left fun entry member =>
        (entries.each entry (List.mem_filter.mp member).1).fileId_eq
    rw [UniqueBy, entries.outbox_eq, nothing, List.append_nil, kept]
    exact agreement.entryFiles.filter remains
  · intro after member
    obtain ⟨entry, stored, step⟩ := origin member
    rw [step.fileId_eq]
    exact agreement.truthyFiles entry stored
  · intro after member
    obtain ⟨entry, stored, step⟩ := origin member
    obtain ⟨document, found, id, file⟩ := agreement.linked entry stored
    refine ⟨change document, ?_, ?_, ?_⟩
    · rw [metadata_eq]
      exact List.mem_map_of_mem found
    · rw [documents.id_eq, step.messageId_eq, id]
    · rw [documents.fileId_eq, step.fileId_eq, file]
  · intro after member
    rw [metadata_eq] at member
    obtain ⟨document, found, rfl⟩ := List.mem_map.mp member
    rcases agreement.covered document found with
      ⟨entry, stored, id, file⟩ | ⟨entry, expired, sent, id, file, published⟩
    · rcases edge.entry coherent.entryIds stored with ⟨later, stays, step⟩ | ⟨sent, acts⟩
      · refine Or.inl ⟨later, stays, ?_, ?_⟩
        · rw [step.messageId_eq, id, documents.id_eq]
        · rw [step.fileId_eq, file, documents.fileId_eq]
      · refine Or.inr ⟨entry, expires entry stored acts, sent, ?_, ?_, ?_⟩
        · rw [id, documents.id_eq]
        · rw [file, documents.fileId_eq]
        · exact documents.published
            ((agreement.dated entry stored document found file.symm).mpr sent)
    · obtain ⟨events, grows⟩ := edge.grows
      refine Or.inr ⟨entry, ?_, sent, ?_, ?_, documents.published published⟩
      · rw [grows]
        exact List.mem_append_right _ expired
      · rw [id, documents.id_eq]
      · rw [file, documents.fileId_eq]
  · intro after member document' member' same
    obtain ⟨entry, stored, step⟩ := origin member
    rw [metadata_eq] at member'
    obtain ⟨document, found, rfl⟩ := List.mem_map.mp member'
    rw [documents.fileId_eq, step.fileId_eq] at same
    exact dated document found entry stored same (agreement.dated entry stored document found same)
      after member step
  · rw [created]
    exact agreement.createdFiles
  · intro entry member
    rw [created] at member
    obtain ⟨document, found, file⟩ := agreement.createdStored entry member
    refine ⟨change document, ?_, ?_⟩
    · rw [metadata_eq]
      exact List.mem_map_of_mem found
    · rw [documents.fileId_eq, file]
  · intro after member
    obtain ⟨entry, stored, step⟩ := origin member
    rw [created, step.id_eq, step.fileId_eq]
    exact agreement.createdAll entry stored

/-- A claim concerns an entry that is not sent. -/
theorem dated_of_quiet {cfg : Config} {system next : System} {action : Action}
    (quiet : ∀ worker times publishedAt, action ≠ .finalize worker times publishedAt)
    {document : MetadataDocument} {entry after : OutboxEntry}
    (dated : document.messaging.publishedAt.isSome = true ↔ entry.status = .sent)
    (step : EntryStep cfg system action next entry after) :
    document.messaging.publishedAt.isSome = true ↔ after.status = .sent := by
  cases step with
  | kept => exact dated
  | claimed _ _ processable _ =>
      have isOpen := isOpen_of_isProcessable processable
      have unsent : entry.status ≠ .sent := by
        intro sent
        simp [OutboxEntry.isOpen, sent] at isOpen
      simp [dated, unsent]
  | finalised acts =>
      obtain ⟨times, publishedAt, same⟩ := acts
      exact absurd same (quiet _ _ _)

/-- The sent entries a worker reports name their files as the store does. -/
theorem file_mem_finalizedSuccessful {cfg : Config} {system : System} {worker : WorkerId}
    {batch rest : List OutboxEntry} {results : PublishResults} {since : Time}
    {result : BatchFinalization} {fate : OutboxEntry → OutboxEntry}
    (agree : SnapshotsAgree system) (agreement : Agreement system)
    (phase : system.run worker = .finalizing batch results rest since)
    (spec : BatchSpec cfg worker batch system.store.outbox result fate) {entry : OutboxEntry}
    (stored : entry ∈ system.store.outbox) :
    EntryId.file entry.fileId ∈ result.finalizedSuccessful.map getEntryId ↔
      entry.id ∈ result.finalizedSuccessful.map OutboxEntry.id := by
  have sameFile {labelled other : OutboxEntry} (named : labelled ∈ result.finalizedSuccessful)
      (isStored : other ∈ system.store.outbox) (same : other.id = labelled.id) :
      other.fileId = labelled.fileId := by
    obtain ⟨_, snapshot, inBatch, rfl⟩ := spec.successful labelled named
    have held : snapshot ∈ (system.run worker).held := by
      rw [phase]
      exact List.mem_append_left _ inBatch
    exact congrArg (fun payload => payload.file.fileId)
      (agree worker snapshot held other isStored same)
  constructor
  · intro member
    obtain ⟨labelled, named, isFile⟩ := List.mem_map.mp member
    obtain ⟨⟨other, isStored, same⟩, _⟩ := spec.successful labelled named
    have equal : other = entry := agreement.entryFiles.eq_of_key isStored stored
      ((sameFile named isStored same).trans (fileId_of_getEntryId isFile))
    exact List.mem_map.mpr ⟨labelled, named, by rw [← same, equal]⟩
  · intro member
    obtain ⟨labelled, named, same⟩ := List.mem_map.mp member
    have file := sameFile named stored same.symm
    refine List.mem_map.mpr ⟨labelled, named, ?_⟩
    rw [file]
    exact getEntryId_of_truthy (file ▸ agreement.truthyFiles entry stored)

/-- The transaction dates the documents whose entries it marks as sent. -/
theorem agreement_finalize {cfg : Config} {system next : System} {worker : WorkerId}
    {times : List Time} {publishedAt : Time} (coherent : Coherent system)
    (agree : SnapshotsAgree system) (agreement : Agreement system)
    (edge : Edge cfg system (.finalize worker times publishedAt) next) : Agreement next := by
  obtain ⟨batch, results, rest, since, result, phase, commits, outbox_eq, change, documents,
    dates⟩ := edge.dates
  obtain ⟨fate, spec⟩ := finalization_spec coherent.entryIds commits
  refine agreement.of_steps coherent edge (by simp) documents ?_ (by simp)
  intro document found entry stored file dated after stays step
  have isFate : after = fate entry := by
    have member : fate entry ∈ next.store.outbox := by
      rw [outbox_eq, spec.outbox_eq]
      exact List.mem_map_of_mem stored
    refine (coherent_step coherent edge).entryIds.eq_of_key stays member ?_
    rw [step.id_eq]
    rcases spec.each entry stored with kept | ⟨outcome, changed, _⟩
    · rw [kept.1]
    · exact changed.id_eq.symm
  have named := file_mem_finalizedSuccessful agree agreement phase spec stored
  rw [dates, file, named, dated, isFate]
  rcases spec.each entry stored with ⟨kept, notSent, _⟩ | ⟨outcome, changed, isSent, _⟩
  · simp [kept, notSent]
  · simp [changed.processing, changed.sent_iff, isSent]

/-- Every new document has exactly one new entry, with the document as its payload. -/
theorem map_payload_committed {cfg : Config} {env : CallbackEnv} {store : Store} {body : Json}
    {documents : List InboundDocument} (accepted : Accepted cfg env store body documents) :
    (createOutboxEntries env.now env.entryId (withIds env.documentId documents)).map
      OutboxEntry.payload = withIds env.documentId documents := by
  rw [map_payload_createOutboxEntries, accepted.filter_isComplete]

/-- New documents, their entries and the events of those agree with each other and
with everything older. -/
theorem agreement_committed {cfg : Config} {system next : System} {env : CallbackEnv}
    {body : Json} {documents : List InboundDocument} (agreement : Agreement system)
    (accepted : Accepted cfg env system.store body documents)
    (stored : next.store = commitDocuments env system.store documents)
    (recorded : next.history =
      (createOutboxEntries env.now env.entryId (withIds env.documentId documents)).map
        Event.created ++ system.history) : Agreement next := by
  generalize isNew : withIds env.documentId documents = inserted at *
  have payloads := map_payload_committed accepted
  rw [isNew] at payloads
  generalize isCreated : createOutboxEntries env.now env.entryId inserted = entries at *
  have outbox_eq : next.store.outbox = system.store.outbox ++ entries := by
    rw [stored, ← isCreated, ← isNew]
    rfl
  have metadata_eq : next.store.metadata = system.store.metadata ++ inserted := by
    rw [stored, ← isNew]
    rfl
  have created : createdEntries next.history = entries ++ createdEntries system.history := by
    rw [recorded, createdEntries_append, createdEntries_created]
  have fresh : ∀ document ∈ inserted, ∀ old ∈ system.store.metadata,
      old.fileId ≠ document.fileId := fun document member =>
    accepted.fresh _ (inbound_of_mem_withIds (isNew ▸ member))
  have origin : ∀ entry ∈ entries, ∃ document ∈ inserted,
      entry = .created env.now entry.id document := by
    intro entry member
    obtain ⟨document, found, _, same⟩ := mem_createOutboxEntries (isCreated ▸ member)
    exact ⟨document, found, same⟩
  have originFile : ∀ entry ∈ entries, ∃ document ∈ inserted,
      document.id = entry.messageId ∧ document.fileId = entry.fileId := by
    intro entry member
    obtain ⟨document, found, same⟩ := origin entry member
    exact ⟨document, found, by rw [same]; rfl, by rw [same]; rfl⟩
  have newFiles : UniqueBy OutboxEntry.fileId entries := by
    have files : entries.map OutboxEntry.fileId =
        documents.map fun document => document.file.fileId := by
      calc
        entries.map OutboxEntry.fileId
            = (entries.map OutboxEntry.payload).map fun document => document.file.fileId := by
          rw [List.map_map]
          rfl
        _ = inserted.map fun document => document.file.fileId := by rw [payloads]
        _ = documents.map fun document => document.file.fileId := by
          rw [← isNew]
          exact map_withIds (fun document => document.file.fileId) env.documentId documents
    rw [UniqueBy, files]
    exact accepted.distinct
  have unpublished : ∀ document ∈ inserted, document.messaging.publishedAt = none :=
    fun document member => (accepted.document (inbound_of_mem_withIds (isNew ▸ member))).2.1
  refine ⟨?_, ?_, ?_, ?_, ?_, ?_, ?_, ?_⟩
  · rw [outbox_eq]
    refine agreement.entryFiles.append newFiles fun entry member old oldMember same => ?_
    obtain ⟨document, found, _, file⟩ := originFile entry member
    obtain ⟨oldDocument, oldFound, _, oldFile⟩ := agreement.linked old oldMember
    exact fresh document found oldDocument oldFound (oldFile.trans (same.trans file.symm))
  · intro entry member
    rw [outbox_eq] at member
    rcases List.mem_append.mp member with old | new
    · exact agreement.truthyFiles entry old
    · obtain ⟨document, found, _, file⟩ := originFile entry new
      obtain ⟨text, isText, nonempty, _⟩ :=
        accepted.fileId (inbound_of_mem_withIds (isNew ▸ found))
      rw [← file, MetadataDocument.fileId, isText]
      simpa [Json.truthy] using nonempty
  · intro entry member
    rw [outbox_eq] at member
    rw [metadata_eq]
    rcases List.mem_append.mp member with old | new
    · obtain ⟨document, found, same⟩ := agreement.linked entry old
      exact ⟨document, List.mem_append_left _ found, same⟩
    · obtain ⟨document, found, same⟩ := originFile entry new
      exact ⟨document, List.mem_append_right _ found, same⟩
  · intro document member
    rw [metadata_eq] at member
    rcases List.mem_append.mp member with old | new
    · rcases agreement.covered document old with ⟨entry, isStored, same⟩ | ⟨entry, expired, same⟩
      · refine Or.inl ⟨entry, ?_, same⟩
        rw [outbox_eq]
        exact List.mem_append_left _ isStored
      · refine Or.inr ⟨entry, ?_, same⟩
        rw [recorded]
        exact List.mem_append_right _ expired
    · obtain ⟨entry, isEntry, payload⟩ := List.mem_map.mp (payloads ▸ new)
      obtain ⟨source, _, same⟩ := origin entry isEntry
      have isSource : source = document := by
        rw [← payload, same]
        rfl
      subst isSource
      refine Or.inl ⟨entry, ?_, by rw [same]; rfl, by rw [same]; rfl⟩
      rw [outbox_eq]
      exact List.mem_append_right _ isEntry
  · intro entry member document member' same
    rw [outbox_eq] at member
    rw [metadata_eq] at member'
    rcases List.mem_append.mp member with old | new
    · rcases List.mem_append.mp member' with oldDocument | newDocument
      · exact agreement.dated entry old document oldDocument same
      · obtain ⟨linked, found, _, file⟩ := agreement.linked entry old
        exact absurd (file.trans same.symm) (fresh document newDocument linked found)
    · obtain ⟨source, found, isSource⟩ := origin entry new
      rcases List.mem_append.mp member' with oldDocument | newDocument
      · refine absurd ?_ (fresh source found document oldDocument)
        rw [same, isSource]
        rfl
      · rw [unpublished document newDocument, isSource]
        simp [OutboxEntry.created]
  · rw [created]
    refine newFiles.append agreement.createdFiles fun old oldMember entry member same => ?_
    obtain ⟨document, found, _, file⟩ := originFile entry member
    obtain ⟨oldDocument, oldFound, oldFile⟩ := agreement.createdStored old oldMember
    exact fresh document found oldDocument oldFound (oldFile.trans (same.symm.trans file.symm))
  · intro entry member
    rw [created] at member
    rw [metadata_eq]
    rcases List.mem_append.mp member with new | old
    · obtain ⟨document, found, _, file⟩ := originFile entry new
      exact ⟨document, List.mem_append_right _ found, file⟩
    · obtain ⟨document, found, file⟩ := agreement.createdStored entry old
      exact ⟨document, List.mem_append_left _ found, file⟩
  · intro entry member
    rw [outbox_eq] at member
    rw [created]
    rcases List.mem_append.mp member with old | new
    · obtain ⟨origin, found, same⟩ := agreement.createdAll entry old
      exact ⟨origin, List.mem_append_right _ found, same⟩
    · exact ⟨entry, List.mem_append_left _ new, rfl, rfl⟩

theorem Agreement.of_same {system next : System} (agreement : Agreement system)
    (outbox : next.store.outbox = system.store.outbox)
    (metadata : next.store.metadata = system.store.metadata)
    (history : next.history = system.history) : Agreement next := by
  obtain ⟨entryFiles, truthyFiles, linked, covered, dated, createdFiles, createdStored,
    createdAll⟩ := agreement
  refine ⟨by rwa [outbox], by rwa [outbox], by rwa [outbox, metadata], ?_,
    by rwa [outbox, metadata], by rwa [history], by rwa [history, metadata],
    by rwa [outbox, history]⟩
  intro document member
  have before := covered document (metadata ▸ member)
  rwa [Covered, outbox, history]

theorem agreement_step {cfg : Config} {system next : System} {action : Action}
    (coherent : Coherent system) (agree : SnapshotsAgree system) (agreement : Agreement system)
    (edge : Edge cfg system action next) : Agreement next := by
  have isEdge := edge
  cases edge with
  | tick | initiate | start | claim | claimsDone | publish | report | abandon =>
      refine agreement.of_steps coherent isEdge (by simp) (.unchanged rfl) ?_ (by simp)
      intro document _ entry _ _ dated after _ step
      exact dated_of_quiet (by simp) dated step
  | expire member sent =>
      rename_i removed
      refine agreement.of_steps coherent isEdge (by simp) (.unchanged rfl) ?_ ?_
      · intro document _ entry _ _ dated after _ step
        exact dated_of_quiet (by simp) dated step
      · intro entry stored acts
        have same : removed.id = entry.id := by simpa using acts
        have equal : removed = entry := coherent.entryIds.eq_of_key member stored same
        subst equal
        exact List.mem_cons_self ..
  | finalize => exact agreement_finalize coherent agree agreement isEdge
  | callback past distinct fresh result effect =>
      clear result
      cases effect with
      | unchanged => exact agreement.of_same rfl rfl (by simp)
      | failed => exact agreement.of_same rfl rfl (by simp)
      | committed documents accepted =>
          refine agreement_committed agreement accepted rfl ?_
          simp [commitDocuments]

theorem agreement_initial : Agreement System.initial := by
  refine ⟨List.nodup_nil, ?_, ?_, ?_, ?_, List.nodup_nil, ?_, ?_⟩ <;>
    simp [System.initial, createdEntries]

theorem Reachable.agreement {cfg : Config} {system : System} (reachable : Reachable cfg system) :
    SnapshotsAgree system ∧ Agreement system := by
  refine Reaches.induction (motive := fun system => SnapshotsAgree system ∧ Agreement system)
    reachable ⟨?_, agreement_initial⟩ ?_
  · simp [SnapshotsAgree, System.initial, RunPhase.held]
  · intro before action after reached holds accepted
    have coherent := Reachable.coherent reached
    have edge := edge_of_step accepted
    exact ⟨snapshotsAgree_step coherent holds.1 edge,
      agreement_step coherent holds.1 holds.2 edge⟩

/-- The document of an entry that was given up is not published in any later state. -/
theorem Reachable.never_published {cfg : Config} {system later : System}
    (reachable : Reachable cfg system) (reach : Reaches (System.step cfg) system later)
    {entry : OutboxEntry} (stored : entry ∈ system.store.outbox)
    (givenUp : entry.status = .permanentFailure) :
    ∀ document ∈ later.store.metadata, document.fileId = entry.fileId →
      document.messaging.publishedAt = none := by
  intro document found same
  have stays := reachable.permanentFailure reach stored givenUp
  have dated := (reachable.reaches reach).agreement.2.dated entry stays document found same
  simpa [givenUp] using dated

/-- In every reachable state the metadata collection and the outbox agree. -/
theorem metadata_outbox_agree {cfg : Config} {system : System}
    (reachable : Reachable cfg system) :
    -- Over the whole run no file has had two entries.
    (UniqueBy OutboxEntry.fileId (createdEntries system.history) ∧
      ∀ entry ∈ system.store.outbox, ∃ created ∈ createdEntries system.history,
        created.id = entry.id ∧ created.fileId = entry.fileId) ∧
    -- Every entry refers to one document.
    (∀ entry ∈ system.store.outbox, ∃ document ∈ system.store.metadata,
      (document.id = entry.messageId ∧ document.fileId = entry.fileId) ∧
        ∀ other ∈ system.store.metadata,
          other.id = entry.messageId ∨ other.fileId = entry.fileId → other = document) ∧
    -- Every document has its entry, unless it was sent and then expired.
    (∀ document ∈ system.store.metadata, Covered system document) ∧
    -- A document is dated exactly when its entry is sent.
    (∀ entry ∈ system.store.outbox, ∀ document ∈ system.store.metadata,
      document.fileId = entry.fileId →
        (document.messaging.publishedAt.isSome = true ↔ entry.status = .sent)) ∧
    -- The document of an entry that was given up is never published.
    ∀ entry ∈ system.store.outbox, entry.status = .permanentFailure →
      ∀ later, Reaches (System.step cfg) system later →
        ∀ document ∈ later.store.metadata, document.fileId = entry.fileId →
          document.messaging.publishedAt = none := by
  have coherent := reachable.coherent
  have agreement := reachable.agreement.2
  refine ⟨⟨agreement.createdFiles, agreement.createdAll⟩, ?_, agreement.covered,
    agreement.dated, ?_⟩
  · intro entry stored
    obtain ⟨document, found, id, file⟩ := agreement.linked entry stored
    refine ⟨document, found, ⟨id, file⟩, ?_⟩
    rintro other isOther (sameId | sameFile)
    · exact coherent.documentIds.eq_of_key isOther found (sameId.trans id.symm)
    · exact coherent.fileIds.eq_of_key isOther found (sameFile.trans file.symm)
  · intro entry stored givenUp later reach document found same
    exact reachable.never_published reach stored givenUp document found same

/-- The sample run: two files in two callbacks, one of them sent and expired, and
a duplicate of the other. -/
def Sample.twoFiles : List Action :=
  [ .callback (Sample.env 1) (Sample.body [("document", Sample.file Sample.fileA)]),
    .start "worker", .claim "worker" (Sample.objectId 101), .claimsDone "worker",
    .publish "worker" (.answered { successful := [.file (.str Sample.fileA)], failed := [] }),
    .finalize "worker" [0] 0,
    .callback (Sample.env 2) (Sample.body [("document", Sample.file Sample.fileB)]),
    .callback (Sample.env 3) (Sample.body [("again", Sample.file Sample.fileB)]),
    .tick 604800000, .expire (Sample.objectId 101) ]

theorem metadata_outbox_agree_sample :
    (System.after Sample.config Sample.twoFiles (by decide)).store.metadata.length = 2 ∧
      ∀ document ∈ (System.after Sample.config Sample.twoFiles (by decide)).store.metadata,
        Covered (System.after Sample.config Sample.twoFiles (by decide)) document :=
  ⟨by decide, (metadata_outbox_agree
    (Reachable.after Sample.config Sample.twoFiles (by decide))).2.2.1⟩

end ObjectProcessor
