import ObjectProcessor.Library.Relay
import ObjectProcessor.Service.Settlement

/-!
# The service is a relay of uploaded files

What the collections, the workers and their claims are for can be said without them: the
service relays files to the topic.  Every step of the service is a move of that relay.
-/

namespace ObjectProcessor

open Library

variable {cfg : Config} {system next later : System} {action : Action} {fileId : Json}

/-- What the entry of a file says of it. -/
def OutboxEntry.fate (entry : OutboxEntry) : Fate :=
  match entry.status with
  | .pending | .processing => .waiting entry.attempts
  | .sent => .delivered
  | .permanentFailure => .givenUp

/-- What has become of a file: its entry says so, or it was sent and expired. -/
def System.fate (system : System) (fileId : Json) : Fate :=
  match system.store.outbox.find? fun entry => entry.fileId = fileId with
  | some entry => entry.fate
  | none =>
      if system.store.metadata.any fun document => document.fileId = fileId then .delivered
      else .absent

/-- The topic has accepted a request that carried an entry of the file. -/
def Acknowledged (system : System) (fileId : Json) : Prop :=
  ∃ worker batch results, .published worker batch results ∈ system.history ∧
    EntryId.file fileId ∈ results.successful

def System.relay (system : System) : Relay Json where
  fate := system.fate
  acknowledged := { fileId | Acknowledged system fileId }

/-! ## The fate of a file -/

theorem fate_of_entry (agreement : Agreement system) {entry : OutboxEntry}
    (stored : entry ∈ system.store.outbox) : system.fate entry.fileId = entry.fate := by
  have found : system.store.outbox.find? (fun other => decide (other.fileId = entry.fileId)) =
      some entry :=
    find?_eq_some_of_unique stored (by simp) fun other otherStored same =>
      agreement.entryFiles.eq_of_key otherStored stored (by simpa using same)
  simp only [System.fate, found]

/-- A file without an entry is stored exactly when it was delivered. -/
theorem fate_of_no_entry (unlisted : ∀ entry ∈ system.store.outbox, entry.fileId ≠ fileId) :
    system.fate fileId =
      if ∃ document ∈ system.store.metadata, document.fileId = fileId then .delivered
      else .absent := by
  have unfound :
      system.store.outbox.find? (fun entry => decide (entry.fileId = fileId)) = none :=
    List.find?_eq_none.mpr (by simpa using unlisted)
  simp only [System.fate, unfound, List.any_eq_true, decide_eq_true_eq]

/-- A file is delivered when its document is dated, and only then. -/
theorem fate_delivered_iff (agreement : Agreement system) :
    system.fate fileId = .delivered ↔ ∃ document ∈ system.store.metadata,
      document.fileId = fileId ∧ document.messaging.publishedAt.isSome = true := by
  by_cases listed : ∃ entry ∈ system.store.outbox, entry.fileId = fileId
  · obtain ⟨entry, stored, rfl⟩ := listed
    obtain ⟨document, found, _, same⟩ := agreement.linked entry stored
    have sent : entry.fate = .delivered ↔ entry.status = .sent := by
      unfold OutboxEntry.fate
      cases entry.status <;> simp
    rw [fate_of_entry agreement stored, sent, ← agreement.dated entry stored document found same]
    constructor
    · exact fun dated => ⟨document, found, same, dated⟩
    · rintro ⟨other, otherFound, otherSame, dated⟩
      rw [agreement.dated entry stored document found same,
        ← agreement.dated entry stored other otherFound otherSame]
      exact dated
  · have unlisted : ∀ entry ∈ system.store.outbox, entry.fileId ≠ fileId := by
      simpa using listed
    rw [fate_of_no_entry unlisted]
    constructor
    · intro delivered
      split at delivered
      · rename_i stored
        obtain ⟨document, found, same⟩ := stored
        refine ⟨document, found, same, ?_⟩
        rcases agreement.covered document found with
          ⟨entry, stored, _, entrySame⟩ | ⟨_, _, _, _, _, dated⟩
        · exact absurd (entrySame.trans same) (unlisted entry stored)
        · exact dated
      · cases delivered
    · rintro ⟨document, found, same, _⟩
      rw [if_pos ⟨document, found, same⟩]

theorem fate_absent_iff (agreement : Agreement system) :
    system.fate fileId = .absent ↔
      ∀ document ∈ system.store.metadata, document.fileId ≠ fileId := by
  by_cases listed : ∃ entry ∈ system.store.outbox, entry.fileId = fileId
  · obtain ⟨entry, stored, rfl⟩ := listed
    obtain ⟨document, found, _, same⟩ := agreement.linked entry stored
    have known : entry.fate ≠ .absent := by
      unfold OutboxEntry.fate
      cases entry.status <;> simp
    rw [fate_of_entry agreement stored]
    exact ⟨fun absent => absurd absent known, fun new => absurd same (new document found)⟩
  · rw [fate_of_no_entry (by simpa using listed)]
    simp

/-! ## Steps are moves -/

/-- What a step does to an entry is a turn of its file. -/
theorem turn_of_entryStep (reachable : Reachable cfg next) {entry after : OutboxEntry}
    (stored : after ∈ next.store.outbox)
    (change : EntryStep cfg system action next entry after) :
    Relay.Turn cfg.outboxMaxAttempts (Acknowledged next entry.fileId) entry.fate after.fate := by
  have ledger := reachable.charges
  have sameFile := change.fileId_eq
  cases change with
  | kept => exact .stays _
  | claimed acts phase processable recorded =>
      rename_i worker now held
      have waiting : entry.fate = .waiting entry.attempts := by
        rcases (isProcessable_iff.mp processable).2 with pending | ⟨processing, _⟩
        · simp [OutboxEntry.fate, pending]
        · simp [OutboxEntry.fate, processing]
      rw [waiting]
      exact .tried (isProcessable_iff.mp processable).1
  | finalised acts phase change recorded =>
      have waiting : entry.fate = .waiting entry.attempts := by
        simp [OutboxEntry.fate, change.processing]
      have sameAttempts : after.attempts = entry.attempts := by
        obtain ⟨error, now, _, _, rfl⟩ := change
        exact finalizeUpdate_attempts ..
      rw [waiting]
      cases status : after.status with
      | pending =>
          rw [OutboxEntry.fate, status, sameAttempts]
          exact .stays _
      | processing => exact absurd status change.not_processing
      | permanentFailure =>
          have spent : entry.attempts = cfg.outboxMaxAttempts := by
            rw [← sameAttempts, ledger.attempts after stored,
              ledger.timesClaimed_of_givenUp stored status]
          rw [OutboxEntry.fate, status, spent]
          exact .givenUp
      | sent =>
          obtain ⟨worker, later, earlier, grows, _, during, batch, results, before, split, _,
            listed, named, _⟩ := reachable.sentEarned after stored status
          have published : .published worker batch results ∈ next.history := by
            rw [grows, split]
            simp
          have requested : 1 ≤ timesPublished after.id next.history :=
            List.countP_pos_iff.mpr ⟨_, published, by simpa [Event.isRequestOf] using listed⟩
          have charged : 1 ≤ entry.attempts := by
            rw [← sameAttempts, ledger.attempts after stored]
            exact requested.trans (ledger.timesPublished_le after.id)
          obtain ⟨attempts, counts⟩ := Nat.exists_eq_add_of_le' charged
          rw [OutboxEntry.fate, status, counts]
          exact .delivered ⟨worker, batch, results, published, sameFile ▸ named⟩

/-- A file that was delivered stays so, whatever becomes of its entry. -/
theorem Edge.delivered_kept (edge : Edge cfg system action next) (reachable : Reachable cfg system)
    (agreement : Agreement next) (delivered : system.fate fileId = .delivered) :
    next.fate fileId = .delivered := by
  obtain ⟨document, found, same, dated⟩ :=
    (fate_delivered_iff reachable.agreement.2).mp delivered
  obtain ⟨change, new, spec⟩ := metadataStep_of_edge edge
  exact (fate_delivered_iff agreement).mpr
    ⟨change document, spec.mem_fate found, (spec.fileId_eq document).trans same,
      spec.published dated⟩

/-- A file without an entry was delivered, or is taken in when its entry is created. -/
theorem turn_of_unlisted (reachable : Reachable cfg system) (agreement : Agreement next)
    (edge : Edge cfg system action next)
    (unlisted : ∀ entry ∈ system.store.outbox, entry.fileId ≠ fileId) :
    Relay.Turn cfg.outboxMaxAttempts (Acknowledged next fileId) (system.fate fileId)
      (next.fate fileId) := by
  by_cases known : ∃ document ∈ system.store.metadata, document.fileId = fileId
  · have delivered : system.fate fileId = .delivered := by
      rw [fate_of_no_entry unlisted, if_pos known]
    rw [delivered, edge.delivered_kept reachable agreement delivered]
    exact .stays _
  · have absent : system.fate fileId = .absent := by
      rw [fate_of_no_entry unlisted, if_neg known]
    rw [absent]
    by_cases listed : ∃ entry ∈ next.store.outbox, entry.fileId = fileId
    · obtain ⟨entry, stored, rfl⟩ := listed
      rw [fate_of_entry agreement stored]
      rcases edge.origin reachable.coherent.entryIds stored with
        ⟨before, found, change⟩ | ⟨env, body, document, _, isNew, _⟩
      · exact absurd change.fileId_eq.symm (unlisted before found)
      · rw [isNew]
        exact .accepted
    · have nextUnlisted : ∀ entry ∈ next.store.outbox, entry.fileId ≠ fileId := by
        simpa using listed
      have undelivered : next.fate fileId ≠ .delivered := by
        intro delivered
        obtain ⟨document, found, same, dated⟩ := (fate_delivered_iff agreement).mp delivered
        obtain ⟨change, new, spec⟩ := metadataStep_of_edge edge
        rcases spec.mem_cases found with ⟨stored, isStored, rfl⟩ | fresh
        · exact known ⟨stored, isStored, (spec.fileId_eq stored).symm.trans same⟩
        · rw [(spec.created document fresh).1] at dated
          cases dated
      rw [fate_of_no_entry nextUnlisted] at undelivered ⊢
      split
      · rename_i stored
        exact absurd (if_pos stored) undelivered
      · exact .stays _

theorem turn_of_step (reachable : Reachable cfg system)
    (accepted : system.step cfg action = some next) (fileId : Json) :
    Relay.Turn cfg.outboxMaxAttempts (Acknowledged next fileId) (system.fate fileId)
      (next.fate fileId) := by
  have edge := edge_of_step accepted
  have reachableNext := reachable.step accepted
  have agreement := reachableNext.agreement.2
  by_cases listed : ∃ entry ∈ system.store.outbox, entry.fileId = fileId
  · obtain ⟨entry, stored, rfl⟩ := listed
    have before := fate_of_entry reachable.agreement.2 stored
    rcases edge.entry reachable.coherent.entryIds stored with ⟨after, stays, change⟩ | ⟨sent, _⟩
    · rw [before, ← change.fileId_eq, fate_of_entry agreement stays, change.fileId_eq]
      exact turn_of_entryStep reachableNext stays change
    · have delivered : system.fate entry.fileId = .delivered := by
        rw [before, OutboxEntry.fate, sent]
      rw [delivered, edge.delivered_kept reachable agreement delivered]
      exact .stays _
  · exact turn_of_unlisted reachable agreement edge (by simpa using listed)

/-- Every step of the service is a move of the relay. -/
theorem moves_of_step (reachable : Reachable cfg system)
    (accepted : system.step cfg action = some next) :
    Relay.Moves cfg.outboxMaxAttempts system.relay next.relay where
  turns := turn_of_step reachable accepted
  grows := by
    rintro fileId ⟨worker, batch, results, published, named⟩
    obtain ⟨events, recorded⟩ := (edge_of_step accepted).grows
    exact ⟨worker, batch, results, recorded ▸ List.mem_append_right _ published, named⟩

/-! ## Runs are runs of the relay -/

theorem relay_run (reachable : Reachable cfg system)
    (reach : Reaches (System.step cfg) system later) :
    Relation.ReflTransGen (Relay.Moves cfg.outboxMaxAttempts) system.relay later.relay :=
  reach.simulates reachable (fun _ _ _ reached accepted => reached.step accepted)
    fun _ _ _ reached accepted => moves_of_step reached accepted

theorem relay_initial : System.initial.relay = Relay.empty := by
  have unacknowledged : ∀ fileId, ¬ Acknowledged System.initial fileId := by
    rintro fileId ⟨_, _, _, published, _⟩
    cases published
  simp only [System.relay, Relay.empty, unacknowledged]
  rfl

/-- The service relays files.  From the empty store on, each of its runs is a run of a relay
that tries a file at most the configured number of times: what is delivered was acknowledged
by the topic, a delivered file or one that was given up stays so, no file that was stored is
forgotten, and a file counts as delivered exactly when its document is dated. -/
theorem service_refines_relay (reachable : Reachable cfg system)
    (reach : Reaches (System.step cfg) system later) :
    Relation.ReflTransGen (Relay.Moves cfg.outboxMaxAttempts) Relay.empty system.relay ∧
      Relation.ReflTransGen (Relay.Moves cfg.outboxMaxAttempts) system.relay later.relay ∧
      later.relay.Sound cfg.outboxMaxAttempts ∧
      ∀ fileId,
        (system.fate fileId = .absent ↔
          ∀ document ∈ system.store.metadata, document.fileId ≠ fileId) ∧
        (system.fate fileId = .delivered ↔ ∃ document ∈ system.store.metadata,
          document.fileId = fileId ∧ document.messaging.publishedAt.isSome = true) ∧
        (system.fate fileId ≠ .absent → later.fate fileId ≠ .absent) ∧
        ((system.fate fileId).isFinal = true → later.fate fileId = system.fate fileId) ∧
        ∀ attempts tried, system.fate fileId = .waiting attempts →
          later.fate fileId = .waiting tried → attempts ≤ tried := by
  have start : Relation.ReflTransGen (Relay.Moves cfg.outboxMaxAttempts) Relay.empty
      system.relay := relay_initial ▸ relay_run (.refl _) reachable
  have run := relay_run reachable reach
  have agreement := reachable.agreement.2
  exact ⟨start, run, (Relay.sound_empty.run start).run run, fun fileId =>
    ⟨fate_absent_iff agreement, fate_delivered_iff agreement, Relay.known_of_run run,
      Relay.fate_eq_of_final run, fun _ _ => Relay.attempts_le_of_run run⟩⟩

/-- The claimed file is tried for the first time, and is delivered once acknowledged. -/
theorem service_refines_relay_sample :
    (System.after Sample.config Sample.firstClaim (by decide)).fate (.str Sample.fileA) =
        .waiting 1 ∧
      (System.after Sample.config Sample.delivery (by decide)).fate (.str Sample.fileA) =
        .delivered ∧
      Acknowledged (System.after Sample.config Sample.delivery (by decide))
        (.str Sample.fileA) := by
  have later : Reaches (System.step Sample.config)
      (System.after Sample.config Sample.firstClaim (by decide))
      (System.after Sample.config Sample.delivery (by decide)) :=
    System.reaches_after Sample.firstClaim (Sample.delivery.drop 3) (by decide) (by decide)
  obtain ⟨_, _, sound, _⟩ := service_refines_relay
    (Reachable.after Sample.config Sample.firstClaim (by decide)) later
  have delivered : (System.after Sample.config Sample.delivery (by decide)).fate
      (.str Sample.fileA) = .delivered := by decide
  exact ⟨by decide, delivered, sound.earned _ delivered⟩

end ObjectProcessor
