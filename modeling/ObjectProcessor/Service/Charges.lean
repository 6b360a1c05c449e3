import ObjectProcessor.Library.Tally
import ObjectProcessor.Service.Records

/-!
# Charged attempts and publish requests

A claim charges an attempt before anything is published.  For every worker and
entry an account counts the claims made, the requests that carried the entry, and
the claimed snapshots whose request is still to come; a request uses up every
snapshot of the entry it carries, and a run that ends drops the rest.
-/

namespace ObjectProcessor

open Library

/-! ## What the history counts -/

def Event.isClaimOf (id : ObjectId) : Event → Bool
  | .claimed _ entry _ => entry = id
  | _ => false

def Event.isRequestOf (id : ObjectId) : Event → Bool
  | .published _ batch _ => id ∈ batch
  | _ => false

/-- How often the entry was claimed. -/
def timesClaimed (id : ObjectId) (history : List Event) : Nat :=
  history.countP (Event.isClaimOf id)

/-- How many publish requests carried the entry. -/
def timesPublished (id : ObjectId) (history : List Event) : Nat :=
  history.countP (Event.isRequestOf id)

/-- The claimed snapshots of a run whose request is still to be made. -/
def RunPhase.unpublished : RunPhase → List OutboxEntry
  | .idle => []
  | .claiming _ claimed => claimed
  | .publishing pending => pending
  | .finalizing _ _ rest _ => rest
  | .reporting _ rest => rest

theorem Event.worker?_of_isClaimOf {id : ObjectId} (event : Event)
    (counted : event.isClaimOf id = true) : event.worker?.isSome = true := by
  cases event <;> first | rfl | cases counted

theorem Event.worker?_of_isRequestOf {id : ObjectId} (event : Event)
    (counted : event.isRequestOf id = true) : event.worker?.isSome = true := by
  cases event <;> first | rfl | cases counted

/-! ## The account of a worker -/

/-- What a worker has done with one entry, and still has to do. -/
structure Account where
  claimed : Nat
  published : Nat
  unpublished : Nat

def System.account (system : System) (worker : WorkerId) (id : ObjectId) : Account where
  claimed := system.history.countP (labelled Event.worker? worker (Event.isClaimOf id))
  published := system.history.countP (labelled Event.worker? worker (Event.isRequestOf id))
  unpublished := ((system.run worker).unpublished.map OutboxEntry.id).count id

/-- The entries the next request of a run carries. -/
def RunPhase.nextBatch (phase : RunPhase) : List ObjectId :=
  (phase.unpublished.take batchSize).map OutboxEntry.id

/-- How a step may change the account of a worker for an entry. -/
inductive AccountStep (phase : RunPhase) (worker : WorkerId) (id : ObjectId) (account : Account) :
    Action → Account → Prop where
  | quiet {action : Action} : AccountStep phase worker id account action account
  | claimed : AccountStep phase worker id account (.claim worker id)
      { account with claimed := account.claimed + 1, unpublished := account.unpublished + 1 }
  | published {answer : PublishAnswer} (rest : Nat)
      (split : account.unpublished = phase.nextBatch.count id + rest) :
      AccountStep phase worker id account (.publish worker answer)
        { account with
          published := account.published + min 1 (phase.nextBatch.count id)
          unpublished := rest }
  | dropped : AccountStep phase worker id account (.abandon worker)
      { account with unpublished := 0 }

/-- The account once the events are recorded and these claims are still to be published. -/
def Account.after (account : Account) (worker : WorkerId) (id : ObjectId) (events : List Event)
    (unpublished : List OutboxEntry) : Account where
  claimed := events.countP (labelled Event.worker? worker (Event.isClaimOf id)) + account.claimed
  published :=
    events.countP (labelled Event.worker? worker (Event.isRequestOf id)) + account.published
  unpublished := (unpublished.map OutboxEntry.id).count id

theorem account_of_grows {system next : System} {events : List Event}
    (grows : next.history = events ++ system.history) (worker : WorkerId) (id : ObjectId) :
    next.account worker id =
      (system.account worker id).after worker id events (next.run worker).unpublished := by
  simp only [System.account, Account.after, grows, List.countP_append]

/-- Neither counted events of the worker nor a change of its unpublished claims. -/
theorem AccountStep.of_uncounted {phase : RunPhase} {worker : WorkerId} {id : ObjectId}
    {account : Account} {action : Action} {events : List Event} {unpublished : List OutboxEntry}
    (uncounted : ∀ event ∈ events, event.worker? = some worker →
      event.isClaimOf id = false ∧ event.isRequestOf id = false)
    (same : (unpublished.map OutboxEntry.id).count id = account.unpublished) :
    AccountStep phase worker id account action (account.after worker id events unpublished) := by
  have none : ∀ counts : Event → Bool, (∀ event ∈ events, event.worker? = some worker →
      counts event = false) → events.countP (labelled Event.worker? worker counts) = 0 := by
    intro counts silent
    refine List.countP_eq_zero.mpr fun event member counted => ?_
    simp only [labelled, Bool.and_eq_true, decide_eq_true_eq] at counted
    rw [silent event member counted.2] at counted
    exact absurd counted.1 (by decide)
  have unchanged : account.after worker id events unpublished = account := by
    simp only [Account.after, same, none _ fun event member by_ => (uncounted event member by_).1,
      none _ fun event member by_ => (uncounted event member by_).2, Nat.zero_add]
  rw [unchanged]
  exact .quiet

/-- A run between batches still has to publish what it was given. -/
theorem unpublished_given (pending : List OutboxEntry) :
    (if pending = [] then RunPhase.idle else .publishing pending).unpublished = pending := by
  split
  · rename_i none
    rw [none, RunPhase.unpublished]
  · rfl

/-- A request carries an entry once, however often the batch holds it. -/
theorem min_one_count (id : ObjectId) (worker : WorkerId) (batch : List ObjectId)
    (results : PublishResults) :
    min 1 (batch.count id) =
      if (Event.published worker batch results).isRequestOf id = true then 1 else 0 := by
  by_cases member : id ∈ batch
  · rw [if_pos (by simpa [Event.isRequestOf] using member)]
    exact Nat.min_eq_left (List.count_pos_iff.mpr member)
  · rw [if_neg (by simpa [Event.isRequestOf] using member), List.count_eq_zero.mpr member,
      Nat.min_zero]

theorem Edge.accountStep {cfg : Config} {system next : System} {action : Action}
    (edge : Edge cfg system action next) (worker : WorkerId) (id : ObjectId) :
    AccountStep (system.run worker) worker id (system.account worker id) action
      (next.account worker id) := by
  obtain ⟨events, grows, moves⟩ := edge.runStep worker
  rw [account_of_grows grows]
  have owed : ((system.run worker).unpublished.map OutboxEntry.id).count id =
    (system.account worker id).unpublished := rfl
  generalize system.account worker id = account at owed ⊢
  generalize system.run worker = before, next.run worker = after at moves owed ⊢
  cases moves with
  | other _ silent =>
      exact .of_uncounted (fun event member by_ => absurd by_ (silent event member)) owed
  | start => exact .of_uncounted (by simp [Event.isClaimOf, Event.isRequestOf]) owed
  | claimsDone => exact .of_uncounted (by simp) (by rwa [unpublished_given])
  | finalize =>
      refine .of_uncounted (fun event member _ => ?_) owed
      rcases mem_finalizationEvents.mp member with ⟨entry, _, rfl⟩ | ⟨entry, _, rfl⟩
      · exact ⟨rfl, rfl⟩
      · exact ⟨rfl, rfl⟩
  | report =>
      refine .of_uncounted (fun event member _ => ?_) (by rwa [unpublished_given])
      obtain ⟨entry, _, rfl⟩ := List.mem_map.mp member
      exact ⟨rfl, rfl⟩
  | claim =>
      rename_i now claimed entry _ _
      by_cases named : entry.id = id
      · subst named
        have charged : AccountStep (.claiming now claimed) worker entry.id account
            (.claim worker entry.id) _ := .claimed
        simpa [Account.after, labelled, Event.worker?, Event.isClaimOf, Event.isRequestOf, ← owed,
          RunPhase.unpublished, Nat.add_comm] using charged
      · refine .of_uncounted (by simp [Event.isClaimOf, Event.isRequestOf, named]) ?_
        simpa [RunPhase.unpublished, named] using owed
  | publish =>
      rename_i answer pending results
      have requested : AccountStep (.publishing pending) worker id account
          (.publish worker answer) _ :=
        .published (((pending.drop batchSize).map OutboxEntry.id).count id) (by
          rw [← owed, RunPhase.nextBatch, RunPhase.unpublished, ← List.count_append,
            ← List.map_append, List.take_append_drop])
      rw [RunPhase.nextBatch, RunPhase.unpublished, min_one_count id worker _ results] at requested
      simpa [Account.after, labelled, Event.worker?, Event.isClaimOf, RunPhase.unpublished,
        List.countP_cons, Nat.add_comm] using requested
  | abandon =>
      have ended : AccountStep before worker id account (.abandon worker) _ := .dropped
      simpa [Account.after, RunPhase.unpublished] using ended

/-! ## The ledger -/

theorem timesClaimed_append {id : ObjectId} (events : List Event) {history : List Event}
    (silent : ∀ event ∈ events, event.isClaimOf id = false) :
    timesClaimed id (events ++ history) = timesClaimed id history := by
  rw [timesClaimed, countP_append_of_silent events silent, timesClaimed]

/-- A step counts a claim exactly when it makes one. -/
theorem Edge.timesClaimed_eq {cfg : Config} {system next : System} {action : Action}
    (edge : Edge cfg system action next) (id : ObjectId) :
    timesClaimed id next.history =
      timesClaimed id system.history + if action.claims id then 1 else 0 := by
  cases edge with
  | tick => rfl
  | initiate => rfl
  | claimsDone => rfl
  | abandon => rfl
  | start => exact timesClaimed_append [_] (by simp [Event.isClaimOf])
  | publish => exact timesClaimed_append [_] (by simp [Event.isClaimOf])
  | expire => exact timesClaimed_append [_] (by simp [Event.isClaimOf])
  | report => exact timesClaimed_append _ (by simp [Event.isClaimOf])
  | callback =>
      refine timesClaimed_append _ fun event member => ?_
      obtain ⟨created, _, rfl⟩ := List.mem_map.mp member
      rfl
  | finalize =>
      refine timesClaimed_append _ fun event member => ?_
      rcases mem_finalizationEvents.mp member with ⟨entry, _, rfl⟩ | ⟨entry, _, rfl⟩
      · rfl
      · rfl
  | claim phase room member oldest =>
      rename_i worker now held entry
      by_cases named : entry.id = id
      · simp [System.record, timesClaimed, Event.isClaimOf, Action.claims, named,
          System.setRun, System.setOutbox]
      · simp [System.record, timesClaimed, Event.isClaimOf, Action.claims, named,
          System.setRun, System.setOutbox]

/-- What is claimed is stored and has an attempt left. -/
theorem Edge.entry_of_claims {cfg : Config} {system next : System} {action : Action}
    (edge : Edge cfg system action next) {id : ObjectId} (claims : action.claims id = true) :
    ∃ entry ∈ system.store.outbox, entry.id = id ∧ entry.attempts < cfg.outboxMaxAttempts ∧
      entry.isOpen = true := by
  cases edge with
  | claim phase room member oldest =>
      rename_i worker now held entry
      rw [isOldestProcessable, Bool.and_eq_true] at oldest
      exact ⟨entry, member, by simpa [Action.claims] using claims,
        (isProcessable_iff.mp oldest.1).1, isOpen_of_isProcessable oldest.1⟩
  | _ => cases claims

/-- No claim is counted beyond the attempts, and no worker has published more than it
claimed. -/
structure ChargeLedger (cfg : Config) (system : System) : Prop where
  attempts : ∀ entry ∈ system.store.outbox, entry.attempts = timesClaimed entry.id system.history
  unissued : ∀ id, id ∉ system.issued → timesClaimed id system.history = 0
  bounded : ∀ id, timesClaimed id system.history ≤ cfg.outboxMaxAttempts
  spent : ∀ entry ∈ system.store.outbox, entry.status = .permanentFailure →
    cfg.outboxMaxAttempts ≤ entry.attempts
  covered : ∀ worker id, (system.account worker id).published +
    (system.account worker id).unpublished ≤ (system.account worker id).claimed

theorem chargeLedger_initial (cfg : Config) : ChargeLedger cfg System.initial where
  attempts := by simp [System.initial]
  unissued := by simp [System.initial, timesClaimed]
  bounded := by simp [System.initial, timesClaimed]
  spent := by simp [System.initial]
  covered := by simp [System.account, System.initial, RunPhase.unpublished]

theorem AccountStep.covered {phase : RunPhase} {worker : WorkerId} {id : ObjectId}
    {before after : Account} {action : Action}
    (step : AccountStep phase worker id before action after)
    (covered : before.published + before.unpublished ≤ before.claimed) :
    after.published + after.unpublished ≤ after.claimed := by
  cases step with
  | quiet => exact covered
  | claimed => exact Nat.succ_le_succ covered
  | published rest split =>
      have once : min 1 (phase.nextBatch.count id) ≤ phase.nextBatch.count id :=
        Nat.min_le_right ..
      simp only
      omega
  | dropped => exact Nat.le_trans (Nat.le_add_right ..) covered

theorem chargeLedger_step {cfg : Config} {system next : System} {action : Action}
    (coherent : Coherent system) (ledger : ChargeLedger cfg system)
    (edge : Edge cfg system action next) : ChargeLedger cfg next := by
  refine ⟨?_, ?_, ?_, ?_, fun worker id => (edge.accountStep worker id).covered
    (ledger.covered worker id)⟩
  · intro after member
    rw [edge.timesClaimed_eq]
    rcases edge.origin coherent.entryIds member with
      ⟨entry, stored, change⟩ | ⟨env, body, document, rfl, same, fresh⟩
    · rw [EntryStep.attempts_eq edge change, change.id_eq, ledger.attempts entry stored]
    · rw [ledger.unissued _ fresh, same]
      rfl
  · intro id fresh
    have absent : id ∉ system.issued := fun issued => fresh (edge.issued issued)
    rw [edge.timesClaimed_eq, ledger.unissued id absent]
    cases claims : action.claims id with
    | false => rfl
    | true =>
        obtain ⟨entry, stored, rfl, _⟩ := edge.entry_of_claims claims
        exact absurd (coherent.issuedEntries entry stored) absent
  · intro id
    rw [edge.timesClaimed_eq]
    cases claims : action.claims id with
    | false => simpa using ledger.bounded id
    | true =>
        obtain ⟨entry, stored, rfl, allowed, _⟩ := edge.entry_of_claims claims
        rw [ledger.attempts entry stored] at allowed
        simpa using Nat.succ_le_of_lt allowed
  · intro after member givenUp
    rcases edge.origin coherent.entryIds member with
      ⟨entry, stored, change⟩ | ⟨env, body, document, _, same, _⟩
    · cases change with
      | kept => exact ledger.spent _ stored givenUp
      | claimed => cases givenUp
      | finalised acts phase change recorded =>
          obtain ⟨_, spent, same⟩ := change.givenUp givenUp
          rwa [same]
    · rw [same] at givenUp
      cases givenUp

theorem Reachable.charges {cfg : Config} {system : System} (reachable : Reachable cfg system) :
    ChargeLedger cfg system :=
  Reaches.induction (motive := ChargeLedger cfg) reachable (chargeLedger_initial cfg)
    fun _ _ _ reached ledger accepted =>
      chargeLedger_step (Reachable.coherent reached) ledger (edge_of_step accepted)

/-- An entry is published at most as often as it is claimed. -/
theorem ChargeLedger.timesPublished_le {cfg : Config} {system : System}
    (ledger : ChargeLedger cfg system) (id : ObjectId) :
    timesPublished id system.history ≤ timesClaimed id system.history := by
  refine countP_le_of_labelled Event.worker?_of_isRequestOf Event.worker?_of_isClaimOf ?_
  intro worker
  exact Nat.le_trans (Nat.le_add_right ..) (ledger.covered worker id)

/-- An entry that was given up has been claimed the configured number of times. -/
theorem ChargeLedger.timesClaimed_of_givenUp {cfg : Config} {system : System}
    (ledger : ChargeLedger cfg system) {entry : OutboxEntry} (stored : entry ∈ system.store.outbox)
    (givenUp : entry.status = .permanentFailure) :
    timesClaimed entry.id system.history = cfg.outboxMaxAttempts := by
  refine Nat.le_antisymm (ledger.bounded entry.id) ?_
  rw [← ledger.attempts entry stored]
  exact ledger.spent entry stored givenUp

end ObjectProcessor
