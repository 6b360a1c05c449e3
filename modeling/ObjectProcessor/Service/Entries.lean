import ObjectProcessor.Service.Steps

/-!
# What a step does to the outbox

A step keeps most entries, may claim or finalise some, may delete a sent one and
may append new ones.  `OutboxStep` says so of the whole collection.  `EntryStep`
says it of a single entry: it stays, is claimed, or is finalised by the owner of its
claim.
-/

namespace ObjectProcessor

open Library

/-- What a step does to an entry that stays in the outbox, and what it records. -/
inductive EntryStep (cfg : Config) (system : System) (action : Action) (next : System) :
    OutboxEntry → OutboxEntry → Prop where
  | kept {events : List Event} (entry : OutboxEntry)
      (recorded : next.history = events ++ system.history)
      (quiet : ∀ event ∈ events, Undisturbed entry.id event) :
      EntryStep cfg system action next entry entry
  | claimed {worker : WorkerId} {now : Time} {held : List OutboxEntry} {entry : OutboxEntry}
      (acts : action = .claim worker entry.id) (phase : system.run worker = .claiming now held)
      (processable : isProcessable cfg now entry = true)
      (recorded : next.history =
        .claimed worker entry.id (entry.attempts + 1) :: system.history) :
      EntryStep cfg system action next entry (claimUpdate cfg worker now entry)
  | finalised {worker : WorkerId} {batch rest : List OutboxEntry} {results : PublishResults}
      {since : Time} {outcome : DeliveryOutcome} {before after : OutboxEntry}
      (acts : ∃ times publishedAt, action = .finalize worker times publishedAt)
      (phase : system.run worker = .finalizing batch results rest since)
      (change : Finalised cfg worker outcome before after)
      (recorded : .finalised worker before.id outcome ∈ next.history) :
      EntryStep cfg system action next before after

namespace EntryStep

variable {cfg : Config} {system next : System} {action : Action} {before after : OutboxEntry}

theorem id_eq (change : EntryStep cfg system action next before after) : after.id = before.id := by
  cases change with
  | kept => rfl
  | claimed => rfl
  | finalised _ _ change _ => exact change.id_eq

theorem messageId_eq (change : EntryStep cfg system action next before after) :
    after.messageId = before.messageId := by
  cases change with
  | kept => rfl
  | claimed => rfl
  | finalised _ _ change _ => exact change.messageId_eq

theorem payload_eq (change : EntryStep cfg system action next before after) :
    after.payload = before.payload := by
  cases change with
  | kept => rfl
  | claimed => rfl
  | finalised _ _ change _ => exact change.payload_eq

theorem fileId_eq (change : EntryStep cfg system action next before after) :
    after.fileId = before.fileId := by
  rw [OutboxEntry.fileId, change.payload_eq, OutboxEntry.fileId]

/-- Only open entries change. -/
theorem eq_of_closed (change : EntryStep cfg system action next before after)
    (closed : before.isOpen = false) : after = before := by
  cases change with
  | kept => rfl
  | claimed _ _ processable _ =>
      rw [isOpen_of_isProcessable processable] at closed
      cases closed
  | finalised _ _ change _ => simp [OutboxEntry.isOpen, change.processing] at closed

end EntryStep

/-- The outbox after a step: entries kept and updated in place, then new ones. -/
structure OutboxStep (cfg : Config) (system : System) (action : Action) (next : System)
    (fate : OutboxEntry → OutboxEntry) (remains : OutboxEntry → Bool) (new : List OutboxEntry) :
    Prop where
  outbox_eq : next.store.outbox = (system.store.outbox.filter remains).map fate ++ new
  each : ∀ entry ∈ system.store.outbox, EntryStep cfg system action next entry (fate entry)
  removed : ∀ entry ∈ system.store.outbox, remains entry = false →
    entry.status = .sent ∧ action = .expire entry.id
  created : ∀ entry ∈ new, ∃ env body document, action = .callback env body ∧
    entry = .created env.now entry.id document
  newIds : UniqueBy OutboxEntry.id new
  issued : ∀ entry ∈ new, entry.id ∉ system.issued ∧ entry.id ∈ next.issued

/-- A step that leaves the outbox alone. -/
theorem OutboxStep.unchanged {cfg : Config} {system next : System} {action : Action}
    (same : next.store.outbox = system.store.outbox) (events : List Event)
    (recorded : next.history = events ++ system.history)
    (quiet : ∀ id, ∀ event ∈ events, Undisturbed id event) :
    OutboxStep cfg system action next id (fun _ => true) [] where
  outbox_eq := by simp [same]
  each := fun entry _ => .kept entry recorded (quiet entry.id)
  removed := by simp
  created := by simp
  newIds := List.nodup_nil
  issued := by simp

/-- The identifiers a callback generates are those of what it stores. -/
theorem generatedIds_eq {cfg : Config} {env : CallbackEnv} {store : Store} {body : Json}
    {documents : List InboundDocument} (accepted : Accepted cfg env store body documents) :
    System.generatedIds env body =
      (withIds env.documentId documents).map MetadataDocument.id ++
        (createOutboxEntries env.now env.entryId (withIds env.documentId documents)).map
          OutboxEntry.id := by
  rw [map_id_createOutboxEntries, accepted.filter_isComplete, map_id_withIds, length_withIds,
    accepted.length_eq]
  rfl

theorem outboxStep_of_edge {cfg : Config} {system next : System} {action : Action}
    (unique : UniqueBy OutboxEntry.id system.store.outbox) (edge : Edge cfg system action next) :
    ∃ fate remains new, OutboxStep cfg system action next fate remains new := by
  cases edge with
  | tick => exact ⟨_, _, _, .unchanged rfl [] rfl (by simp)⟩
  | initiate => exact ⟨_, _, _, .unchanged rfl [] rfl (by simp)⟩
  | start => exact ⟨_, _, _, .unchanged rfl _ rfl (by simp [Undisturbed])⟩
  | claimsDone => exact ⟨_, _, _, .unchanged rfl [] rfl (by simp)⟩
  | publish => exact ⟨_, _, _, .unchanged rfl _ rfl (by simp [Undisturbed])⟩
  | report => exact ⟨_, _, _, .unchanged rfl _ rfl (by simp [Undisturbed])⟩
  | abandon => exact ⟨_, _, _, .unchanged rfl [] rfl (by simp)⟩
  | callback past distinct fresh result effect =>
      clear result
      cases effect with
      | unchanged => exact ⟨_, _, _, .unchanged rfl _ rfl (by simp)⟩
      | failed => exact ⟨_, _, _, .unchanged rfl _ rfl (by simp)⟩
      | committed documents accepted =>
          rename_i env body
          refine ⟨id, fun _ => true, createOutboxEntries env.now env.entryId
            (withIds env.documentId documents), ?_, fun entry _ => .kept entry rfl ?_, by simp,
            ?_, ?_, ?_⟩
          · simp [commitDocuments]
          · intro event recorded
            obtain ⟨created, _, rfl⟩ := List.mem_map.mp recorded
            exact trivial
          · intro entry member
            obtain ⟨document, _, _, same⟩ := mem_createOutboxEntries member
            exact ⟨env, body, document, rfl, same⟩
          · rw [generatedIds_eq accepted] at distinct
            exact (List.nodup_append.mp distinct).2.1
          · intro entry member
            have generated : entry.id ∈ System.generatedIds env body := by
              rw [generatedIds_eq accepted]
              exact List.mem_append_right _ (List.mem_map_of_mem member)
            exact ⟨fresh _ generated, List.mem_append_left _ generated⟩
  | claim phase room member oldest =>
      rename_i worker now held entry
      refine ⟨fun other => if other.id = entry.id then claimUpdate cfg worker now other else other,
        fun _ => true, [], ?_, ?_, by simp, by simp, List.nodup_nil, by simp⟩
      · simp [System.setOutbox, System.setRun, System.record, updateMany]
      · intro other otherMember
        by_cases same : other.id = entry.id
        · have equal : other = entry := unique.eq_of_key otherMember member same
          subst equal
          simp only [↓reduceIte]
          rw [isOldestProcessable, Bool.and_eq_true] at oldest
          exact .claimed rfl phase oldest.1 rfl
        · simp only [same, ↓reduceIte]
          exact .kept other rfl (by simpa [Undisturbed] using Ne.symm same)
  | finalize phase past commits =>
      rename_i worker times publishedAt batch results rest since result
      obtain ⟨fate, spec⟩ := finalization_spec unique commits
      refine ⟨fate, fun _ => true, [], ?_, ?_, by simp, by simp, List.nodup_nil, by simp⟩
      · simpa [System.setRun, System.record] using spec.outbox_eq
      · intro entry member
        rcases spec.each entry member with
          ⟨kept, notSent, notFailed⟩ | ⟨outcome, change, isSent, isFailed⟩
        · rw [kept]
          refine .kept entry rfl fun event recorded => ?_
          rcases mem_finalizationEvents.mp recorded with
            ⟨other, named, rfl⟩ | ⟨other, named, rfl⟩
          · exact fun same => notSent (same ▸ List.mem_map_of_mem named)
          · exact fun same => notFailed (same ▸ List.mem_map_of_mem named)
        · refine .finalised ⟨times, publishedAt, rfl⟩ phase change
            (List.mem_append_left _ (mem_finalizationEvents.mpr ?_))
          cases outcome with
          | succeeded =>
              obtain ⟨labelled, named, same⟩ := List.mem_map.mp (isSent.mpr rfl)
              exact Or.inl ⟨labelled, named, by rw [same]⟩
          | failed =>
              obtain ⟨labelled, named, same⟩ := List.mem_map.mp (isFailed.mpr rfl)
              exact Or.inr ⟨labelled, named, by rw [same]⟩
  | expire member sent =>
      rename_i entry
      refine ⟨id, fun other => decide (other.id ≠ entry.id), [], ?_,
        fun other _ => .kept other rfl ?_, ?_, by simp, List.nodup_nil, by simp⟩
      · simp [System.setOutbox, System.record]
      · simp [Undisturbed]
      · intro other otherMember gone
        have equal : other = entry := unique.eq_of_key otherMember member (by simpa using gone)
        subst equal
        exact ⟨sent, rfl⟩

/-- An entry of the outbox is still there after a step, or was sent and expired. -/
theorem Edge.entry {cfg : Config} {system next : System} {action : Action}
    (edge : Edge cfg system action next) (unique : UniqueBy OutboxEntry.id system.store.outbox)
    {entry : OutboxEntry} (member : entry ∈ system.store.outbox) :
    (∃ after ∈ next.store.outbox, EntryStep cfg system action next entry after) ∨
      (entry.status = .sent ∧ action = .expire entry.id) := by
  obtain ⟨fate, remains, new, spec⟩ := outboxStep_of_edge unique edge
  cases stays : remains entry with
  | false => exact Or.inr (spec.removed entry member stays)
  | true =>
      refine Or.inl ⟨fate entry, ?_, spec.each entry member⟩
      rw [spec.outbox_eq]
      exact List.mem_append_left _ (List.mem_map_of_mem (List.mem_filter.mpr ⟨member, stays⟩))

/-- An entry of the outbox after a step was there before, or was just created. -/
theorem Edge.origin {cfg : Config} {system next : System} {action : Action}
    (edge : Edge cfg system action next) (unique : UniqueBy OutboxEntry.id system.store.outbox)
    {after : OutboxEntry} (member : after ∈ next.store.outbox) :
    (∃ entry ∈ system.store.outbox, EntryStep cfg system action next entry after) ∨
      ∃ env body document, action = .callback env body ∧
        after = .created env.now after.id document ∧ after.id ∉ system.issued := by
  obtain ⟨fate, remains, new, spec⟩ := outboxStep_of_edge unique edge
  rw [spec.outbox_eq] at member
  rcases List.mem_append.mp member with old | fresh
  · obtain ⟨entry, kept, rfl⟩ := List.mem_map.mp old
    have stored := (List.mem_filter.mp kept).1
    exact Or.inl ⟨entry, stored, spec.each entry stored⟩
  · obtain ⟨env, body, document, acts, same⟩ := spec.created after fresh
    exact Or.inr ⟨env, body, document, acts, same, (spec.issued after fresh).1⟩

end ObjectProcessor
