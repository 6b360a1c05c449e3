import ObjectProcessor.Library.PastTime
import ObjectProcessor.Service.Invariant

/-!
# Claims are exclusive

An entry under a claim was last claimed by the worker named in it, and nothing
has happened to that claim since.  A worker holds snapshots it claimed in its
current run.  A finalisation matches only when both describe one claim.
-/

namespace ObjectProcessor

open Library

/-- The last claim of the entry was made by the worker with that attempt, and has
not been finalised. -/
def ClaimOpen (worker : WorkerId) (id : ObjectId) (attempt : Nat) (history : List Event) : Prop :=
  Since (Undisturbed id) (· = .claimed worker id attempt) history

/-- The worker claimed the entry with that attempt in its current run. -/
def ClaimedInRun (worker : WorkerId) (id : ObjectId) (attempt : Nat) (history : List Event) :
    Prop :=
  Since (SameRun worker) (· = .claimed worker id attempt) history

/-- Both at once: the last claim of the entry is the worker's, it was made in the
current run, and it has not been finalised. -/
def OwnClaim (worker : WorkerId) (id : ObjectId) (history : List Event) : Prop :=
  ∃ attempt, Since (fun event => Undisturbed id event ∧ SameRun worker event)
    (· = .claimed worker id attempt) history

/-- Every claim the store shows is the last one recorded. -/
def ClaimsRecorded (system : System) : Prop :=
  ∀ entry ∈ system.store.outbox, entry.status = .processing →
    ∃ worker, entry.claimedBy = some worker ∧
      ClaimOpen worker entry.id entry.attempts system.history

/-- Every snapshot a worker holds was claimed in its current run. -/
def HoldingsRecorded (system : System) : Prop :=
  ∀ worker, ∀ snapshot ∈ (system.run worker).held,
    ClaimedInRun worker snapshot.id snapshot.attempts system.history

theorem claimsRecorded_step {cfg : Config} {system next : System} {action : Action}
    (coherent : Coherent system) (recorded : ClaimsRecorded system)
    (edge : Edge cfg system action next) : ClaimsRecorded next := by
  intro after member processing
  rcases edge.origin coherent.entryIds member with
    ⟨entry, stored, change⟩ | ⟨env, body, document, _, same, _⟩
  · cases change with
    | kept entry grows quiet =>
        obtain ⟨worker, owner, isOpen⟩ := recorded _ stored processing
        exact ⟨worker, owner, grows ▸ isOpen.append quiet⟩
    | claimed acts phase processable grows =>
        exact ⟨_, rfl, grows ▸ Since.head rfl⟩
    | finalised acts phase change grows => exact absurd processing change.not_processing
  · rw [same] at processing
    cases processing

theorem sameRun_of_other {worker : WorkerId} {event : Event}
    (apart : event.worker? ≠ some worker) : SameRun worker event := by
  cases event with
  | runStarted other => exact fun same => apart (congrArg some same)
  | _ => exact trivial

/-- Only the start of a run ends the previous one. -/
theorem Edge.sameRun {cfg : Config} {system next : System} {action : Action}
    (edge : Edge cfg system action next) {worker : WorkerId} (other : action ≠ .start worker) :
    ∃ events, next.history = events ++ system.history ∧ ∀ event ∈ events, SameRun worker event := by
  obtain ⟨events, grows, moves⟩ := edge.runStep worker
  refine ⟨events, grows, ?_⟩
  generalize system.run worker = before, next.run worker = after at moves
  cases moves with
  | other _ silent => exact fun event member => sameRun_of_other (silent event member)
  | start => exact absurd rfl other
  | claim => simp [SameRun]
  | claimsDone => simp
  | publish => simp [SameRun]
  | finalize =>
      intro event member
      rcases mem_finalizationEvents.mp member with ⟨entry, _, rfl⟩ | ⟨entry, _, rfl⟩
      · exact trivial
      · exact trivial
  | report => simp [SameRun]
  | abandon => simp

theorem holdingsRecorded_step {cfg : Config} {system next : System} {action : Action}
    (recorded : HoldingsRecorded system) (edge : Edge cfg system action next) :
    HoldingsRecorded next := by
  intro worker snapshot holds
  rcases edge.held holds with ⟨before, other⟩ | ⟨now, held, entry, _, _, _, _, rfl, grows⟩
  · obtain ⟨events, grows, sameRun⟩ := edge.sameRun other
    exact grows ▸ (recorded worker snapshot before).append sameRun
  · exact grows ▸ Since.head rfl

/-- A snapshot a worker holds and an entry it still owns describe one claim. -/
theorem ownClaim_of_match {system : System} (claims : ClaimsRecorded system)
    (holdings : HoldingsRecorded system) {worker : WorkerId} {snapshot entry : OutboxEntry}
    (holds : snapshot ∈ (system.run worker).held) (stored : entry ∈ system.store.outbox)
    (same : entry.id = snapshot.id) (processing : entry.status = .processing)
    (owned : entry.claimedBy = some worker) : OwnClaim worker entry.id system.history := by
  obtain ⟨owner, isOwner, isOpen⟩ := claims entry stored processing
  have equal : owner = worker := Option.some.inj (isOwner.symm.trans owned)
  subst equal
  have inRun := holdings owner snapshot holds
  rw [← same] at inRun
  refine ⟨entry.attempts, isOpen.combine inRun ?_⟩
  -- Had the run claimed the entry before its open claim, that claim were disturbed.
  rintro event rfl undisturbed
  exact undisturbed rfl

/-- A finalisation is recorded only for a claim of the worker's current run that
has not been finalised before. -/
def FinalisationsOwned (system : System) : Prop :=
  EveryEvent (fun event earlier => ∀ worker id outcome, event = .finalised worker id outcome →
    OwnClaim worker id earlier) system.history

/-- The batch being finalised is held. -/
theorem mem_held_of_finalizing {system : System} {worker : WorkerId}
    {batch rest : List OutboxEntry} {results : PublishResults} {since : Time}
    (phase : system.run worker = .finalizing batch results rest since) {snapshot : OutboxEntry}
    (member : snapshot ∈ batch) : snapshot ∈ (system.run worker).held := by
  rw [phase]
  exact List.mem_append_left _ member

/-- What a committed finalisation has changed was the worker's own claim. -/
theorem ownClaim_of_finalized {cfg : Config} {system : System} {worker : WorkerId}
    {batch rest : List OutboxEntry} {results : PublishResults} {since : Time}
    {result : BatchFinalization} {fate : OutboxEntry → OutboxEntry}
    (claims : ClaimsRecorded system) (holdings : HoldingsRecorded system)
    (phase : system.run worker = .finalizing batch results rest since)
    (spec : BatchSpec cfg worker batch system.store.outbox result fate) {labelled : OutboxEntry}
    (member : labelled ∈ result.finalizedSuccessful ++ result.finalizedFailed) :
    OwnClaim worker labelled.id system.history := by
  obtain ⟨entry, stored, same, snapshot, inBatch, sameId⟩ : ∃ entry ∈ system.store.outbox,
      entry.id = labelled.id ∧ ∃ snapshot ∈ batch, labelled.id = snapshot.id := by
    rcases List.mem_append.mp member with sent | failed
    · obtain ⟨⟨entry, stored, same⟩, snapshot, inBatch, label⟩ := spec.successful labelled sent
      exact ⟨entry, stored, same, snapshot, inBatch, by rw [label]⟩
    · obtain ⟨⟨entry, stored, same⟩, snapshot, inBatch, label⟩ := spec.failed labelled failed
      exact ⟨entry, stored, same, snapshot, inBatch, by rw [label]⟩
  have named : entry.id ∈ (result.finalizedSuccessful ++ result.finalizedFailed).map
      OutboxEntry.id := same ▸ List.mem_map_of_mem member
  rw [List.map_append, List.mem_append] at named
  rcases spec.each entry stored with ⟨_, notSent, notFailed⟩ | ⟨outcome, change, _⟩
  · exact absurd named (not_or.mpr ⟨notSent, notFailed⟩)
  · rw [← same]
    exact ownClaim_of_match claims holdings (mem_held_of_finalizing phase inBatch) stored
      (same.trans sameId) change.processing change.owned

/-- The finalisations of one transaction concern different entries. -/
theorem pairwise_finalizationEvents (worker : WorkerId) {result : BatchFinalization}
    (distinct : ((result.finalizedSuccessful ++ result.finalizedFailed).map
      OutboxEntry.id).Nodup) :
    (finalizationEvents worker result).reverse.Pairwise fun earlier later =>
      ∀ other id outcome, later = .finalised other id outcome →
        Undisturbed id earlier ∧ SameRun other earlier := by
  rw [finalizationEvents, List.reverse_reverse]
  have apart := List.pairwise_append.mp (List.pairwise_map.mp distinct)
  have justified {left right : OutboxEntry} {first second : DeliveryOutcome}
      (differ : left.id ≠ right.id) : ∀ other id outcome,
        Event.finalised worker right.id second = .finalised other id outcome →
          Undisturbed id (.finalised worker left.id first) ∧
            SameRun other (.finalised worker left.id first) := by
    rintro other id outcome same
    cases same
    exact ⟨differ, trivial⟩
  refine List.pairwise_append.mpr ⟨?_, ?_, ?_⟩
  · exact List.pairwise_map.mpr (apart.1.imp justified)
  · exact List.pairwise_map.mpr (apart.2.1.imp justified)
  · intro earlier inSent later inFailed
    obtain ⟨left, leftMem, rfl⟩ := List.mem_map.mp inSent
    obtain ⟨right, rightMem, rfl⟩ := List.mem_map.mp inFailed
    exact justified (apart.2.2 left leftMem right rightMem)

theorem finalisationsOwned_step {cfg : Config} {system next : System} {action : Action}
    (coherent : Coherent system) (claims : ClaimsRecorded system)
    (holdings : HoldingsRecorded system) (owned : FinalisationsOwned system)
    (edge : Edge cfg system action next) : FinalisationsOwned next := by
  cases edge with
  | tick => exact owned
  | initiate => exact owned
  | claimsDone => exact owned
  | abandon => exact owned
  | start => exact owned.cons (by simp)
  | claim => exact owned.cons (by simp)
  | publish => exact owned.cons (by simp)
  | expire => exact owned.cons (by simp)
  | report => exact owned.append (by simp)
  | callback =>
      refine owned.append fun event member => ?_
      obtain ⟨created, _, rfl⟩ := List.mem_map.mp member
      simp
  | finalize phase past commits =>
      rename_i worker times publishedAt batch results rest since result
      obtain ⟨fate, spec⟩ := finalization_spec coherent.entryIds commits
      have apart := pairwise_finalizationEvents worker spec.distinct
      have grown : EveryEvent (fun event earlier => ∀ worker id outcome,
          event = .finalised worker id outcome → OwnClaim worker id earlier)
          ((finalizationEvents worker result).reverse.reverse ++ system.history) := by
        refine owned.record ?_
        rintro front event back split other id outcome rfl
        have recorded : .finalised other id outcome ∈ finalizationEvents worker result := by
          rw [← List.mem_reverse, split]
          simp
        have own : OwnClaim other id system.history := by
          rcases mem_finalizationEvents.mp recorded with
            ⟨labelled, named, same⟩ | ⟨labelled, named, same⟩
          · cases same
            exact ownClaim_of_finalized claims holdings phase spec (List.mem_append_left _ named)
          · cases same
            exact ownClaim_of_finalized claims holdings phase spec (List.mem_append_right _ named)
        obtain ⟨attempt, since⟩ := own
        refine ⟨attempt, since.append fun earlier member => ?_⟩
        rw [split] at apart
        exact (List.pairwise_append.mp apart).2.2 earlier (List.mem_reverse.mp member) _
          (List.mem_cons_self ..) other id outcome rfl
      rwa [List.reverse_reverse] at grown

/-- What the history says of claims, in every reachable state. -/
structure ClaimLedger (system : System) : Prop where
  coherent : Coherent system
  claims : ClaimsRecorded system
  holdings : HoldingsRecorded system
  finalisations : FinalisationsOwned system

theorem Reachable.claimLedger {cfg : Config} {system : System}
    (reachable : Reachable cfg system) : ClaimLedger system := by
  refine Reaches.invariant reachable ?_ ?_
  · exact ⟨coherent_initial, by simp [ClaimsRecorded, System.initial],
      by simp [HoldingsRecorded, System.initial, RunPhase.held], EveryEvent.nil⟩
  · intro before action after ledger accepted
    have edge := edge_of_step accepted
    exact ⟨coherent_step ledger.coherent edge,
      claimsRecorded_step ledger.coherent ledger.claims edge,
      holdingsRecorded_step ledger.holdings edge,
      finalisationsOwned_step ledger.coherent ledger.claims ledger.holdings
        ledger.finalisations edge⟩

/-- A claim step leaves every entry alone whose lease has not passed. -/
theorem claim_respects_lease {cfg : Config} {system next : System} (coherent : Coherent system)
    {worker : WorkerId} {id : ObjectId} (edge : Edge cfg system (.claim worker id) next)
    {entry : OutboxEntry} (stored : entry ∈ system.store.outbox)
    (processing : entry.status = .processing) {limit : Time}
    (leased : entry.claimedUntil = some limit) (unexpired : system.clock ≤ limit) :
    entry ∈ next.store.outbox := by
  rcases edge.entry coherent.entryIds stored with ⟨after, member, change⟩ | ⟨sent, _⟩
  · cases change with
    | kept => exact member
    | claimed _ phase processable _ =>
        -- The reading of the loop lies in the past, so the lease has not passed for it either.
        have past := coherent.readings _ _ _ phase
        obtain ⟨previous, same, expired⟩ := expired_of_isProcessable processing processable
        have equal : limit = previous := Option.some.inj (leased.symm.trans same)
        subst equal
        exact absurd (Nat.lt_of_lt_of_le expired past) (Nat.not_lt.mpr unexpired)
    | finalised acts => simp at acts
  · rw [processing] at sent
    cases sent

/-- A finalisation leaves an entry alone, or settles the worker's own open claim. -/
theorem finalize_settles_own_claim {cfg : Config} {system next : System}
    (ledger : ClaimLedger system) {worker : WorkerId} {times : List Time} {publishedAt : Time}
    (edge : Edge cfg system (.finalize worker times publishedAt) next) {entry : OutboxEntry}
    (stored : entry ∈ system.store.outbox) :
    entry ∈ next.store.outbox ∨
      (OwnClaim worker entry.id system.history ∧
        ∃ outcome, .finalised worker entry.id outcome ∈ next.history) := by
  cases edge with
  | finalize phase past commits =>
      rename_i batch results rest since result
      obtain ⟨fate, spec⟩ := finalization_spec ledger.coherent.entryIds commits
      rcases spec.each entry stored with ⟨kept, _⟩ | ⟨outcome, _, isSent, isFailed⟩
      · left
        show entry ∈ result.outbox
        rw [spec.outbox_eq, ← kept]
        exact List.mem_map_of_mem stored
      · right
        obtain ⟨labelled, named, same, event⟩ : ∃ labelled,
            labelled ∈ result.finalizedSuccessful ++ result.finalizedFailed ∧
              labelled.id = entry.id ∧
              .finalised worker labelled.id outcome ∈ finalizationEvents worker result := by
          cases outcome with
          | succeeded =>
              obtain ⟨labelled, named, same⟩ := List.mem_map.mp (isSent.mpr rfl)
              exact ⟨labelled, List.mem_append_left _ named, same,
                mem_finalizationEvents.mpr (Or.inl ⟨labelled, named, rfl⟩)⟩
          | failed =>
              obtain ⟨labelled, named, same⟩ := List.mem_map.mp (isFailed.mpr rfl)
              exact ⟨labelled, List.mem_append_right _ named, same,
                mem_finalizationEvents.mpr (Or.inr ⟨labelled, named, rfl⟩)⟩
        refine ⟨?_, outcome, ?_⟩
        · rw [← same]
          exact ownClaim_of_finalized ledger.claims ledger.holdings phase spec named
        · rw [← same]
          exact List.mem_append_left _ event

/-- Claims are exclusive, and each is finalised at most once, by its owner. -/
theorem claims_exclusive_finalised_once {cfg : Config} {system : System}
    (reachable : Reachable cfg system) :
    (∀ worker id next, system.step cfg (.claim worker id) = some next →
        ∀ entry ∈ system.store.outbox, entry.status = .processing →
          ∀ limit, entry.claimedUntil = some limit → system.clock ≤ limit →
            entry ∈ next.store.outbox) ∧
      (∀ later worker id outcome earlier,
        system.history = later ++ .finalised worker id outcome :: earlier →
          OwnClaim worker id earlier) ∧
      ∀ worker times publishedAt next,
        system.step cfg (.finalize worker times publishedAt) = some next →
          ∀ entry ∈ system.store.outbox, entry ∈ next.store.outbox ∨
            (OwnClaim worker entry.id system.history ∧
              ∃ outcome, .finalised worker entry.id outcome ∈ next.history) := by
  have ledger := reachable.claimLedger
  refine ⟨?_, ?_, ?_⟩
  · intro worker id next accepted entry stored processing limit leased unexpired
    exact claim_respects_lease ledger.coherent (edge_of_step accepted) stored processing leased
      unexpired
  · intro later worker id outcome earlier split
    exact ledger.finalisations later _ earlier split worker id outcome rfl
  · intro worker times publishedAt next accepted entry stored
    exact finalize_settles_own_claim ledger (edge_of_step accepted) stored

/-- A run in which one worker claims, publishes and finalises one entry. -/
def Sample.delivery : List Action :=
  [ .callback (Sample.env 1) (Sample.body [("document", Sample.file Sample.fileA)]),
    .start "worker", .claim "worker" (Sample.objectId 101), .claimsDone "worker",
    .publish "worker" (.answered { successful := [.file (.str Sample.fileA)], failed := [] }),
    .finalize "worker" [0] 0 ]

/-- In the sample run the one finalisation follows the worker's own claim. -/
theorem claims_exclusive_finalised_once_sample :
    ∃ earlier, (System.after Sample.config Sample.delivery (by decide)).history =
        .finalised "worker" (Sample.objectId 101) .succeeded :: earlier ∧
      OwnClaim "worker" (Sample.objectId 101) earlier := by
  have split : (System.after Sample.config Sample.delivery (by decide)).history =
      [] ++ .finalised "worker" (Sample.objectId 101) .succeeded ::
        (System.after Sample.config Sample.delivery (by decide)).history.tail := by decide
  exact ⟨_, split, (claims_exclusive_finalised_once
    (Reachable.after Sample.config Sample.delivery (by decide))).2.1 _ _ _ _ _ split⟩

end ObjectProcessor
