import ObjectProcessor.Service.Charges
import ObjectProcessor.Service.Agreement
import ObjectProcessor.Service.Exclusivity

/-!
# How an entry was settled

An entry that is sent or given up was last touched by a finalisation with that
outcome.  A sent one has earned it: under the claim that was finalised, the same
run had published the entry, and the answer named its file as successful.
-/

namespace ObjectProcessor

open Library

/-- The event is no claim of the worker. -/
def NoClaimBy (worker : WorkerId) : Event → Prop
  | .claimed other _ _ => other ≠ worker
  | _ => True

/-- The answer a worker is about to finalise belongs to its latest request, and the
worker has claimed nothing since. -/
def RequestsRecorded (system : System) : Prop :=
  ∀ worker batch results rest since, system.run worker = .finalizing batch results rest since →
    Since (NoClaimBy worker) (· = .published worker (batch.map OutboxEntry.id) results)
      system.history

/-- A request made under the worker's claim carried the entry, and the answer named the
file as successful. -/
def Delivered (worker : WorkerId) (id : ObjectId) (fileId : Json) (history : List Event) : Prop :=
  ∃ during batch results before,
    history = during ++ .published worker batch results :: before ∧
      (∀ event ∈ during, Undisturbed id event ∧ SameRun worker event) ∧ id ∈ batch ∧
      EntryId.file fileId ∈ results.successful ∧ OwnClaim worker id before

/-- The last finalisation of the entry was the worker's, with the given outcome, and
`justified` of the history before it. -/
def SettledBy (worker : WorkerId) (id : ObjectId) (outcome : DeliveryOutcome)
    (justified : List Event → Prop) (history : List Event) : Prop :=
  ∃ later earlier, history = later ++ .finalised worker id outcome :: earlier ∧
    (∀ event ∈ later, Undisturbed id event) ∧ justified earlier

theorem SettledBy.append {worker : WorkerId} {id : ObjectId} {outcome : DeliveryOutcome}
    {justified : List Event → Prop} {history events : List Event}
    (settled : SettledBy worker id outcome justified history)
    (quiet : ∀ event ∈ events, Undisturbed id event) :
    SettledBy worker id outcome justified (events ++ history) := by
  obtain ⟨later, earlier, rfl, undisturbed, holds⟩ := settled
  refine ⟨events ++ later, earlier, by simp, ?_, holds⟩
  exact List.forall_mem_append.mpr ⟨quiet, undisturbed⟩

/-! ## The latest request of a run -/

theorem noClaimBy_of_other {worker : WorkerId} {event : Event}
    (apart : event.worker? ≠ some worker) : NoClaimBy worker event := by
  cases event with
  | claimed other => exact fun same => apart (congrArg some same)
  | _ => exact trivial

/-- A run that is to finalise was so before, or has just published. -/
theorem Edge.finalizing {cfg : Config} {system next : System} {action : Action}
    (edge : Edge cfg system action next) {worker : WorkerId} {batch rest : List OutboxEntry}
    {results : PublishResults} {since : Time}
    (phase : next.run worker = .finalizing batch results rest since) :
    (system.run worker = .finalizing batch results rest since ∧
        ∃ events, next.history = events ++ system.history ∧
          ∀ event ∈ events, NoClaimBy worker event) ∨
      next.history = .published worker (batch.map OutboxEntry.id) results :: system.history := by
  obtain ⟨events, grows, moves⟩ := edge.runStep worker
  rw [phase] at moves
  generalize system.run worker = before at moves ⊢
  generalize reached : RunPhase.finalizing batch results rest since = after at moves ⊢
  cases moves with
  | other _ silent =>
      refine Or.inl ⟨rfl, events, grows, fun event member => ?_⟩
      exact noClaimBy_of_other (silent event member)
  | publish =>
      cases reached
      exact Or.inr grows
  | claimsDone => split at reached <;> cases reached
  | report => split at reached <;> cases reached
  | _ => cases reached

theorem requestsRecorded_step {cfg : Config} {system next : System} {action : Action}
    (recorded : RequestsRecorded system) (edge : Edge cfg system action next) :
    RequestsRecorded next := by
  intro worker batch results rest since phase
  rcases edge.finalizing phase with ⟨before, events, grows, quiet⟩ | published
  · exact grows ▸ (recorded worker batch results rest since before).append quiet
  · exact published ▸ Since.head rfl

theorem Reachable.requestsRecorded {cfg : Config} {system : System}
    (reachable : Reachable cfg system) : RequestsRecorded system := by
  refine Reaches.invariant reachable ?_ ?_
  · simp [RequestsRecorded, System.initial]
  · intro before action after recorded accepted
    exact requestsRecorded_step recorded (edge_of_step accepted)

/-! ## Settled entries -/

/-- Within one transaction, nothing but its own event concerns a finalised entry. -/
theorem finalizationEvents_split {worker : WorkerId} {result : BatchFinalization}
    (distinct : ((result.finalizedSuccessful ++ result.finalizedFailed).map
      OutboxEntry.id).Nodup) {id : ObjectId} {outcome : DeliveryOutcome}
    (recorded : .finalised worker id outcome ∈ finalizationEvents worker result) :
    ∃ later front,
      finalizationEvents worker result = later ++ .finalised worker id outcome :: front ∧
        ∀ event ∈ later ++ front,
          Undisturbed id event ∧ ∀ other, SameRun other event := by
  obtain ⟨later, front, split⟩ := List.append_of_mem recorded
  have apart := pairwise_finalizationEvents worker distinct
  rw [split, List.reverse_append, List.reverse_cons, List.append_assoc,
    List.pairwise_append] at apart
  obtain ⟨_, following, preceding⟩ := apart
  refine ⟨later, front, split, fun event member => ?_⟩
  have isFinalised : event ∈ finalizationEvents worker result := by
    rw [split]
    rcases List.mem_append.mp member with after | before
    · exact List.mem_append_left _ after
    · exact List.mem_append_right _ (List.mem_cons_of_mem _ before)
  obtain ⟨named, result, rfl⟩ : ∃ named result, event = .finalised worker named result := by
    rcases mem_finalizationEvents.mp isFinalised with ⟨entry, _, rfl⟩ | ⟨entry, _, rfl⟩
    · exact ⟨_, _, rfl⟩
    · exact ⟨_, _, rfl⟩
  refine ⟨?_, fun _ => trivial⟩
  rcases List.mem_append.mp member with after | before
  · have differ : Undisturbed named (.finalised worker id outcome) := by
      refine ((List.pairwise_append.mp following).2.2 _ (List.mem_singleton_self _) _
        (List.mem_reverse.mpr after) _ _ _ rfl).1
    exact Ne.symm differ
  · exact (preceding _ (List.mem_reverse.mpr before) _
      (List.mem_append_left _ (List.mem_singleton_self _)) _ _ _ rfl).1

/-- What a finalisation that changed an entry has relied on, and what it records. -/
structure Settlement (cfg : Config) (system next : System) (worker : WorkerId)
    (outcome : DeliveryOutcome) (entry after : OutboxEntry) : Prop where
  stored : after ∈ next.store.outbox
  change : Finalised cfg worker outcome entry after
  answered : ∃ batch results rest since,
    system.run worker = .finalizing batch results rest since ∧
      ∃ snapshot ∈ batch, snapshot.id = entry.id ∧
        match outcome with
        | .succeeded => getEntryId snapshot ∈ results.successful
        | .failed => getEntryId snapshot ∈ results.failed.map PublishFailure.id
  recorded : ∃ later front,
    next.history = later ++ .finalised worker entry.id outcome :: (front ++ system.history) ∧
      ∀ event ∈ later ++ front, Undisturbed entry.id event ∧ ∀ other, SameRun other event
  reported : outcome = .failed → ∃ failed rest, next.run worker = .reporting failed rest ∧
    entry.id ∈ failed.map OutboxEntry.id

/-- A finalisation leaves an entry alone or settles it. -/
theorem Edge.settles {cfg : Config} {system next : System} {worker : WorkerId}
    {times : List Time} {publishedAt : Time} (coherent : Coherent system)
    (edge : Edge cfg system (.finalize worker times publishedAt) next) {entry : OutboxEntry}
    (stored : entry ∈ system.store.outbox) :
    entry ∈ next.store.outbox ∨
      ∃ outcome after, Settlement cfg system next worker outcome entry after := by
  cases edge with
  | finalize phase past commits =>
      rename_i batch results rest since result
      obtain ⟨fate, spec⟩ := finalization_spec coherent.entryIds commits
      have remains : fate entry ∈ result.outbox := by
        rw [spec.outbox_eq]
        exact List.mem_map_of_mem stored
      rcases spec.each entry stored with ⟨kept, _⟩ | ⟨outcome, change, isSent, isFailed⟩
      · left
        rw [kept] at remains
        exact remains
      · right
        have split (recorded : .finalised worker entry.id outcome ∈
            finalizationEvents worker result) : ∃ later front,
              finalizationEvents worker result ++ system.history =
                later ++ .finalised worker entry.id outcome :: (front ++ system.history) ∧
                ∀ event ∈ later ++ front,
                  Undisturbed entry.id event ∧ ∀ other, SameRun other event := by
          obtain ⟨later, front, same, quiet⟩ := finalizationEvents_split spec.distinct recorded
          exact ⟨later, front, by rw [same]; simp, quiet⟩
        refine ⟨outcome, fate entry, remains, change,
          ⟨batch, results, rest, since, phase, ?_⟩, split ?_, ?_⟩
        · cases outcome with
          | succeeded =>
              obtain ⟨labelled, named, same⟩ := List.mem_map.mp (isSent.mpr rfl)
              rw [commits] at named
              obtain ⟨snapshot, inBatch, picked, sameId⟩ :=
                named_of_finalizedSuccessful coherent.entryIds named
              exact ⟨snapshot, inBatch, sameId.symm.trans same, picked⟩
          | failed =>
              obtain ⟨labelled, named, same⟩ := List.mem_map.mp (isFailed.mpr rfl)
              rw [commits] at named
              obtain ⟨snapshot, inBatch, picked, sameId⟩ :=
                named_of_finalizedFailed coherent.entryIds named
              exact ⟨snapshot, inBatch, sameId.symm.trans same, picked⟩
        · cases outcome with
          | succeeded =>
              obtain ⟨labelled, named, same⟩ := List.mem_map.mp (isSent.mpr rfl)
              exact mem_finalizationEvents.mpr (Or.inl ⟨labelled, named, by rw [same]⟩)
          | failed =>
              obtain ⟨labelled, named, same⟩ := List.mem_map.mp (isFailed.mpr rfl)
              exact mem_finalizationEvents.mpr (Or.inr ⟨labelled, named, by rw [same]⟩)
        · intro failed
          exact ⟨result.finalizedFailed, rest, by simp [System.setRun, System.record],
            isFailed.mpr failed⟩

/-- An entry that is not open has been so before, or is settled by this step. -/
theorem Edge.settlement {cfg : Config} {system next : System} {action : Action}
    (edge : Edge cfg system action next) (coherent : Coherent system)
    {after : OutboxEntry} (member : after ∈ next.store.outbox) (closed : after.isOpen = false) :
    (after ∈ system.store.outbox ∧ ∃ events, next.history = events ++ system.history ∧
        ∀ event ∈ events, Undisturbed after.id event) ∨
      ∃ worker times publishedAt outcome, ∃ entry ∈ system.store.outbox,
        action = .finalize worker times publishedAt ∧
          Settlement cfg system next worker outcome entry after := by
  rcases edge.origin coherent.entryIds member with
    ⟨entry, stored, change⟩ | ⟨env, body, document, _, same, _⟩
  · cases change with
    | kept entry grows quiet => exact Or.inl ⟨stored, _, grows, quiet⟩
    | claimed => cases closed
    | finalised acts phase change recorded =>
        obtain ⟨times, publishedAt, rfl⟩ := acts
        have unique := (coherent_step coherent edge).entryIds
        rcases edge.settles coherent stored with kept | ⟨outcome, settled, settlement⟩
        · have equal := unique.eq_of_key member kept change.id_eq
          exact absurd (equal ▸ change.processing) change.not_processing
        · have equal := unique.eq_of_key settlement.stored member
            (settlement.change.id_eq.trans change.id_eq.symm)
          subst equal
          exact Or.inr ⟨_, times, publishedAt, outcome, entry, stored, rfl, settlement⟩
  · rw [same] at closed
    cases closed

/-! ## Sent entries -/

/-- Every sent entry was delivered under the claim that was finalised last. -/
def SentEarned (system : System) : Prop :=
  ∀ entry ∈ system.store.outbox, entry.status = .sent →
    ∃ worker, SettledBy worker entry.id .succeeded (Delivered worker entry.id entry.fileId)
      system.history

/-- A settled success answers a request the run made under its claim of the entry. -/
theorem Settlement.delivered {cfg : Config} {system next : System} {worker : WorkerId}
    {entry after : OutboxEntry} (ledger : ClaimLedger system) (agreement : Agreement system)
    (agree : SnapshotsAgree system) (requests : RequestsRecorded system)
    (stored : entry ∈ system.store.outbox)
    (settlement : Settlement cfg system next worker .succeeded entry after) :
    Delivered worker entry.id entry.fileId system.history := by
  obtain ⟨batch, results, rest, since, phase, snapshot, inBatch, same, named⟩ :=
    settlement.answered
  have held := mem_held_of_finalizing phase inBatch
  obtain ⟨attempt, own⟩ := ownClaim_of_match ledger.claims ledger.holdings held stored same.symm
    settlement.change.processing settlement.change.owned
  -- The run has claimed nothing since it published, so its claim lies before the request.
  obtain ⟨during, event, before, split, rfl, quiet, claimed⟩ :=
    own.within (requests worker batch results rest since phase) (by
      rintro event rfl
      exact ⟨by simp, fun other => other rfl⟩)
  refine ⟨during, _, results, before, split, quiet, ?_, ?_, attempt, claimed⟩
  · exact List.mem_map.mpr ⟨snapshot, inBatch, same⟩
  · have payload := agree worker snapshot held entry stored same.symm
    have truthy := agreement.truthyFiles entry stored
    have sameFile : snapshot.fileId = entry.fileId := by
      rw [OutboxEntry.fileId, ← payload, OutboxEntry.fileId]
    rwa [getEntryId_of_truthy (sameFile ▸ truthy), sameFile] at named

theorem sentEarned_step {cfg : Config} {system next : System} {action : Action}
    (ledger : ClaimLedger system) (agreement : Agreement system) (agree : SnapshotsAgree system)
    (requests : RequestsRecorded system) (earned : SentEarned system)
    (edge : Edge cfg system action next) : SentEarned next := by
  intro after member sent
  rcases edge.settlement ledger.coherent member (by simp [OutboxEntry.isOpen, sent]) with
    ⟨stored, events, grows, quiet⟩ |
      ⟨worker, times, publishedAt, outcome, entry, stored, _, settlement⟩
  · obtain ⟨worker, settled⟩ := earned after stored sent
    exact ⟨worker, grows ▸ settled.append quiet⟩
  · have succeeded := settlement.change.sent_iff.mp sent
    subst succeeded
    obtain ⟨later, front, grows, quiet⟩ := settlement.recorded
    obtain ⟨during, batch, results, before, split, undisturbed, listed, named, own⟩ :=
      settlement.delivered ledger agreement agree requests stored
    rw [List.forall_mem_append] at quiet
    have sameFile : after.fileId = entry.fileId := by
      rw [OutboxEntry.fileId, settlement.change.payload_eq, OutboxEntry.fileId]
    rw [settlement.change.id_eq, sameFile]
    refine ⟨worker, later, front ++ system.history, grows, fun event late => (quiet.1 event late).1,
      front ++ during, batch, results, before, by rw [split]; simp, ?_, listed, named, own⟩
    rw [List.forall_mem_append]
    exact ⟨fun event early => ⟨(quiet.2 event early).1, (quiet.2 event early).2 worker⟩,
      undisturbed⟩

theorem Reachable.sentEarned {cfg : Config} {system : System} (reachable : Reachable cfg system) :
    SentEarned system := by
  refine Reaches.induction (motive := SentEarned) reachable ?_ ?_
  · simp [SentEarned, System.initial]
  · intro before action after reached earned accepted
    have agreement := Reachable.agreement reached
    exact sentEarned_step (Reachable.claimLedger reached) agreement.2 agreement.1
      (Reachable.requestsRecorded reached) earned (edge_of_step accepted)

/-- An entry is published at most as often as it was charged an attempt, within the
configured maximum, and is sent only after a delivery under its last claim. -/
theorem deliveries_bounded_and_sent_earned {cfg : Config} {system : System}
    (reachable : Reachable cfg system) :
    (∀ entry ∈ system.store.outbox,
        timesPublished entry.id system.history ≤ entry.attempts ∧
          entry.attempts ≤ cfg.outboxMaxAttempts) ∧
      (∀ id, timesPublished id system.history ≤ cfg.outboxMaxAttempts) ∧
      ∀ entry ∈ system.store.outbox, entry.status = .sent →
        ∃ worker, SettledBy worker entry.id .succeeded (Delivered worker entry.id entry.fileId)
          system.history := by
  have ledger := reachable.charges
  refine ⟨?_, ?_, reachable.sentEarned⟩
  · intro entry stored
    rw [ledger.attempts entry stored]
    exact ⟨ledger.timesPublished_le entry.id, ledger.bounded entry.id⟩
  · intro id
    exact Nat.le_trans (ledger.timesPublished_le id) (ledger.bounded id)

/-- In the sample run the one entry has earned its status with a single request. -/
theorem deliveries_bounded_and_sent_earned_sample :
    ∃ entry ∈ (System.after Sample.config Sample.delivery (by decide)).store.outbox,
      timesPublished entry.id
          (System.after Sample.config Sample.delivery (by decide)).history = 1 ∧
        1 ≤ entry.attempts ∧
        ∃ worker, SettledBy worker entry.id .succeeded (Delivered worker entry.id entry.fileId)
          (System.after Sample.config Sample.delivery (by decide)).history := by
  have sent : ∃ entry ∈ (System.after Sample.config Sample.delivery (by decide)).store.outbox,
      entry.status = .sent ∧ timesPublished entry.id
        (System.after Sample.config Sample.delivery (by decide)).history = 1 := by decide
  obtain ⟨entry, stored, isSent, once⟩ := sent
  obtain ⟨bounded, _, earned⟩ := deliveries_bounded_and_sent_earned
    (Reachable.after Sample.config Sample.delivery (by decide))
  exact ⟨entry, stored, once, once ▸ (bounded entry stored).1, earned entry stored isSent⟩

end ObjectProcessor
