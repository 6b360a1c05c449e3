import ObjectProcessor.Service.Settlement

/-!
# The delivery budget

An attempt is charged when an entry is claimed and spent when a request carries
it.  The two part when a run ends between them, when a request carries two claims
of one entry, or when an entry is given up while some run has yet to publish an
earlier claim of it.
-/

namespace ObjectProcessor

open Library

variable {cfg : Config} {system next : System} {action : Action}

/-- What was given up was published in every attempt, and an attempt is charged only
for a claim that was published or is yet to be. -/
def BudgetSpent (cfg : Config) (system : System) : Prop :=
  (∀ entry ∈ system.store.outbox, entry.status = .permanentFailure →
      timesPublished entry.id system.history = cfg.outboxMaxAttempts) ∧
    ∀ worker id, (system.account worker id).claimed =
      (system.account worker id).published + (system.account worker id).unpublished

/-- An attempt is charged by every claim and by nothing else.  An entry is given up after as many
claims as are allowed, and is published no more often than it is claimed. -/
structure ChargedAtClaim (cfg : Config) (system : System) : Prop where
  attempts : ∀ entry ∈ system.store.outbox,
    entry.attempts = timesClaimed entry.id system.history
  published : ∀ id, timesPublished id system.history ≤ timesClaimed id system.history
  allowed : ∀ id, timesClaimed id system.history ≤ cfg.outboxMaxAttempts
  givenUp : ∀ entry ∈ system.store.outbox, entry.status = .permanentFailure →
    timesClaimed entry.id system.history = cfg.outboxMaxAttempts

/-- The step loses no charged attempt: no run ends with claims it has not published, no
request carries an entry twice, and an entry whose last attempt has failed is finalised
when no run has a claim of it left to publish. -/
def SpendsBudget (cfg : Config) (system : System) : Action → Prop
  | .publish worker _ => (system.run worker).nextBatch.Nodup
  | .abandon worker => (system.run worker).unpublished = []
  | .finalize worker _ _ =>
      ∀ batch results rest since, system.run worker = .finalizing batch results rest since →
        ∀ entry ∈ system.store.outbox, entry.status = .processing →
          entry.claimedBy = some worker → cfg.outboxMaxAttempts ≤ entry.attempts →
          (∃ snapshot ∈ batch, snapshot.id = entry.id ∧
            getEntryId snapshot ∈ results.failed.map PublishFailure.id) →
          ∀ other, entry.id ∉ (system.run other).unpublished.map OutboxEntry.id
  | _ => True

/-- The accounts balance, and no claim of an entry that was given up is left. -/
structure Balanced (system : System) : Prop where
  balance : ∀ worker id, (system.account worker id).claimed =
    (system.account worker id).published + (system.account worker id).unpublished
  released : ∀ entry ∈ system.store.outbox, entry.status = .permanentFailure →
    ∀ worker, (system.account worker entry.id).unpublished = 0

theorem balanced_initial : Balanced System.initial where
  balance := by simp [System.account, System.initial, RunPhase.unpublished]
  released := by simp [System.initial]

/-- An account stays balanced when a request carries the entry once and a run ends
without claims. -/
theorem AccountStep.balance {phase : RunPhase} {worker : WorkerId} {id : ObjectId}
    {before after : Account} (step : AccountStep phase worker id before action after)
    (balance : before.claimed = before.published + before.unpublished)
    (once : ∀ answer, action = .publish worker answer → phase.nextBatch.count id ≤ 1)
    (finished : action = .abandon worker → before.unpublished = 0) :
    after.claimed = after.published + after.unpublished := by
  cases step with
  | quiet => exact balance
  | claimed =>
      simp only
      omega
  | published rest split =>
      have single : min 1 (phase.nextBatch.count id) = phase.nextBatch.count id :=
        Nat.min_eq_right (once _ rfl)
      simp only [single]
      omega
  | dropped =>
      have none := finished rfl
      simp only
      omega

/-- Only a claim of the entry gives a run something more to publish. -/
theorem AccountStep.unpublished_eq_zero {phase : RunPhase} {worker : WorkerId} {id : ObjectId}
    {before after : Account} (step : AccountStep phase worker id before action after)
    (none : before.unpublished = 0) (other : action.claims id = false) :
    after.unpublished = 0 := by
  cases step with
  | quiet => exact none
  | claimed => simp [Action.claims] at other
  | published rest split => exact (Nat.add_eq_zero_iff.mp (split.symm.trans none)).2
  | dropped => rfl

theorem balanced_step (coherent : Coherent system) (balanced : Balanced system)
    (edge : Edge cfg system action next) (spends : SpendsBudget cfg system action) :
    Balanced next := by
  constructor
  · intro worker id
    refine (edge.accountStep worker id).balance (balanced.balance worker id) ?_ ?_
    · rintro answer rfl
      exact List.nodup_iff_count_le_one.mp spends id
    · rintro rfl
      have finished : (system.run worker).unpublished = [] := spends
      simp [System.account, finished]
  · intro after member givenUp worker
    rcases edge.settlement coherent member (by simp [OutboxEntry.isOpen, givenUp]) with
      ⟨stored, _⟩ | ⟨actor, times, publishedAt, outcome, entry, stored, rfl, settlement⟩
    · refine (edge.accountStep worker after.id).unpublished_eq_zero
        (balanced.released after stored givenUp worker) ?_
      -- What is claimed is open, so it is not the entry that was given up.
      cases claims : action.claims after.id with
      | false => rfl
      | true =>
          obtain ⟨entry, isStored, same, _, isOpen⟩ := edge.entry_of_claims claims
          rw [coherent.entryIds.eq_of_key isStored stored same] at isOpen
          simp [OutboxEntry.isOpen, givenUp] at isOpen
    · refine (edge.accountStep worker after.id).unpublished_eq_zero ?_ rfl
      obtain ⟨failed, spent, _⟩ := settlement.change.givenUp givenUp
      subst failed
      obtain ⟨batch, results, rest, since, phase, answered⟩ := settlement.answered
      rw [settlement.change.id_eq]
      exact List.count_eq_zero.mpr (spends batch results rest since phase entry stored
        settlement.change.processing settlement.change.owned spent answered worker)

/-- When the accounts balance, the budget of every entry that was given up is spent. -/
theorem Balanced.budgetSpent (balanced : Balanced system) (ledger : ChargeLedger cfg system) :
    BudgetSpent cfg system := by
  refine ⟨fun entry stored givenUp => ?_, balanced.balance⟩
  rw [← ledger.timesClaimed_of_givenUp stored givenUp]
  refine countP_eq_of_labelled Event.worker?_of_isRequestOf Event.worker?_of_isClaimOf ?_
  intro worker
  have account := balanced.balance worker entry.id
  rw [balanced.released entry stored givenUp worker, Nat.add_zero] at account
  exact account.symm

/-- Throughout a run whose steps lose no charged attempt, an entry is given up only after
it was published in all of its attempts, and none is charged without a request. -/
theorem budget_spent_when_no_attempt_is_lost {actions : List Action}
    (spends : EveryStep (System.step cfg) (SpendsBudget cfg) System.initial actions) :
    Throughout (System.step cfg) (BudgetSpent cfg) System.initial actions := by
  have balanced : Throughout (System.step cfg) Balanced System.initial actions := by
    refine throughout_of_everyStep balanced_initial ?_ spends
    intro state action next reached balanced spends accepted
    exact balanced_step (Reachable.coherent reached) balanced (edge_of_step accepted) spends
  exact balanced.imp fun state reached holds => holds.budgetSpent (Reachable.charges reached)

/-- Throughout every run an entry is given up only after all of its attempts were charged, each
by a claim; and where no charged attempt is lost, only after it was published in all of them. -/
theorem budget_charged_at_claim (cfg : Config) (actions : List Action) :
    Throughout (System.step cfg) (ChargedAtClaim cfg) System.initial actions ∧
      (EveryStep (System.step cfg) (SpendsBudget cfg) System.initial actions →
        Throughout (System.step cfg) (BudgetSpent cfg) System.initial actions) := by
  refine ⟨fun front rest state _ reached => ?_, budget_spent_when_no_attempt_is_lost⟩
  have ledger : ChargeLedger cfg state := Reachable.charges ⟨front, reached⟩
  exact
    { attempts := ledger.attempts
      published := ledger.timesPublished_le
      allowed := ledger.bounded
      givenUp := fun _ stored givenUp => ledger.timesClaimed_of_givenUp stored givenUp }

/-- A run in which the publisher fails the one entry. -/
def Sample.failure : List Action :=
  [ .callback (Sample.env 1) (Sample.body [("document", Sample.file Sample.fileA)]),
    .start "worker", .claim "worker" (Sample.objectId 101), .claimsDone "worker",
    .publish "worker" (.threw none none), .finalize "worker" [0] 0 ]

/-- The one worker of the sample run publishes its claims before it finalises. -/
theorem Sample.failure_spends_budget :
    EveryStep (System.step Sample.oneAttempt) (SpendsBudget Sample.oneAttempt) System.initial
      Sample.failure := by
  have ofWorker : ∀ action ∈ Sample.failure, action.worker? = none ∨
      action.worker? = some "worker" := by decide
  let publishes (system : System) (action : Action) : Bool :=
    match action with
    | .publish worker _ => decide (system.run worker).nextBatch.Nodup
    | .abandon _ => false
    | .finalize _ _ _ => (system.run "worker").unpublished = []
    | _ => true
  have atOnce : EveryStep (System.step Sample.oneAttempt)
      (fun system action => publishes system action = true) System.initial Sample.failure := by
    decide
  rintro front action rest state split reached
  have admitted := atOnce front action rest state split reached
  cases action with
  | publish worker answer =>
      have distinct : (state.run worker).nextBatch.Nodup := of_decide_eq_true admitted
      exact distinct
  | abandon worker => cases admitted
  | finalize worker times publishedAt =>
      intro batch results others since _ entry _ _ _ _ _ other
      by_cases same : other = "worker"
      · have none : (state.run "worker").unpublished = [] := of_decide_eq_true admitted
        simp [same, none]
      · have idle : state.run other = .idle := by
          refine run_of_absent reached fun earlier member => ?_
          have listed : earlier ∈ Sample.failure := split ▸ List.mem_append_left _ member
          rcases ofWorker earlier listed with none | worker
          · simp [none]
          · simpa [worker] using Ne.symm same
        simp [idle, RunPhase.unpublished]
  | _ => exact trivial

/-- In the sample run the entry is given up after the one request it is due. -/
theorem budget_charged_at_claim_sample :
    BudgetSpent Sample.oneAttempt (System.after Sample.oneAttempt Sample.failure (by decide)) ∧
      ∃ entry ∈ (System.after Sample.oneAttempt Sample.failure (by decide)).store.outbox,
        entry.status = .permanentFailure ∧ entry.attempts = 1 := by
  refine ⟨?_, by decide⟩
  exact (budget_charged_at_claim Sample.oneAttempt Sample.failure).2
    Sample.failure_spends_budget _ [] _ (List.append_nil _).symm (Option.some_get _).symm

/-- Two workers claim the entry and die; the third publishes it and fails. -/
def Sample.giveUpAfterCrashes : List Action :=
  [ .callback (Sample.env 1) (Sample.body [("document", Sample.file Sample.fileA)]),
    .start "first", .claim "first" (Sample.objectId 101), .abandon "first",
    .tick 300001, .start "second", .claim "second" (Sample.objectId 101), .abandon "second",
    .tick 600002, .start "third", .claim "third" (Sample.objectId 101), .claimsDone "third",
    .publish "third" (.threw none none), .finalize "third" [600002] 600002 ]

/-- The entry was given up after one request of the three it is due. -/
theorem Sample.giveUpAfterCrashes_unspent :
    Reachable Sample.config (System.after Sample.config Sample.giveUpAfterCrashes (by decide)) ∧
      ¬ BudgetSpent Sample.config
        (System.after Sample.config Sample.giveUpAfterCrashes (by decide)) ∧
      ∃ entry ∈ (System.after Sample.config Sample.giveUpAfterCrashes
          (by decide)).store.outbox,
        entry.status = .permanentFailure ∧
          timesPublished entry.id (System.after Sample.config Sample.giveUpAfterCrashes
            (by decide)).history = 1 ∧ Sample.config.outboxMaxAttempts = 3 := by
  have givenUp : ∃ entry ∈ (System.after Sample.config Sample.giveUpAfterCrashes
      (by decide)).store.outbox, entry.status = .permanentFailure ∧
        timesPublished entry.id (System.after Sample.config Sample.giveUpAfterCrashes
          (by decide)).history = 1 ∧ Sample.config.outboxMaxAttempts = 3 := by decide
  refine ⟨Reachable.after _ _ _, fun spent => ?_, givenUp⟩
  obtain ⟨entry, stored, status, once, three⟩ := givenUp
  have all := spent.1 entry stored status
  rw [once, three] at all
  cases all

end ObjectProcessor
