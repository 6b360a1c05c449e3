import ObjectProcessor.Service.Backlog
import ObjectProcessor.Service.Budget
import ObjectProcessor.Service.PollRun

/-!
# What the failure counters say of a run

A worker counts the failures of a batch after its transaction has committed, one counter for
each kind, and only then reports them.  It may stop before it has emitted them.  Across any
number of workers, and with metrics enabled, what was emitted, what is still due and what was
lost together are the failures the transactions have stored.
-/

namespace ObjectProcessor

open Library

variable {cfg : Config} {system next : System} {action : Action} {worker : WorkerId}

/-- The service and the counters of its workers. -/
structure Metered where
  system : System
  /-- What the workers have still to emit, each in this order. -/
  due : List (WorkerId × Metric)
  emitted : List Metric
  /-- What was due when a run ended. -/
  lost : List Metric

inductive MeteredAction where
  | act (action : Action)
  | emit (worker : WorkerId)

/-- The failures a run has to report. -/
def RunPhase.failed : RunPhase → List OutboxEntry
  | .reporting failed _ => failed
  | _ => []

namespace Metered

def initial : Metered := { system := .initial, due := [], emitted := [], lost := [] }

def isDueTo (worker : WorkerId) (counter : WorkerId × Metric) : Bool := counter.1 = worker

/-- What an action of the service does to the counters while metrics are enabled. -/
def follow (metered : Metered) (next : System) : Action → Option Metered
  | .finalize worker _ _ =>
      some { metered with
        system := next
        due := metered.due ++
          (failureMetrics true (next.run worker).failed).map fun metric => (worker, metric) }
  | .report worker =>
      if metered.due.any (isDueTo worker) then none else some { metered with system := next }
  | .abandon worker =>
      some { metered with
        system := next
        due := metered.due.filter fun counter => !isDueTo worker counter
        lost := metered.lost ++ (metered.due.filter (isDueTo worker)).map Prod.snd }
  | _ => some { metered with system := next }

def step (cfg : Config) (metered : Metered) : MeteredAction → Option Metered
  | .act action =>
      (metered.system.step cfg action).bind fun next => metered.follow next action
  | .emit worker =>
      (metered.due.find? (isDueTo worker)).map fun counter =>
        { metered with
          due := metered.due.erase counter
          emitted := metered.emitted ++ [counter.2] }

/-- What was emitted, is due, or was lost. -/
def counted (metered : Metered) : List Metric :=
  metered.emitted ++ metered.due.map Prod.snd ++ metered.lost

end Metered

/-! ## Totals -/

theorem metricTotal_perm (name outcome : String) {left right : List Metric}
    (perm : left.Perm right) : metricTotal name outcome left = metricTotal name outcome right :=
  ((perm.filter _).map _).sum_eq

/-- The counters of a batch add up to its failures of each kind. -/
theorem metricTotal_failureMetrics (failed : List OutboxEntry) :
    metricTotal "outbox.publish_failed" "retryable" (failureMetrics true failed) =
        (retryableEntries failed).length ∧
      metricTotal "outbox.publish_failed" "permanent" (failureMetrics true failed) =
        (terminalEntries failed).length := by
  have count (entries : List OutboxEntry) (outcome kind : String) :
      metricTotal "outbox.publish_failed" kind
        (if entries = [] then [] else emitMetric true "outbox.publish_failed" entries.length
          (outcomeDimension outcome)) = if outcome = kind then (entries.length : Rat) else 0 := by
    by_cases none : entries = []
    · simp [none]
    · have counter : emitMetric true "outbox.publish_failed" entries.length
          (outcomeDimension outcome) = [⟨"outbox.publish_failed", entries.length,
            outcomeDimension outcome⟩] := by
        rw [emitMetric, if_pos rfl, sanitiseDimensions_outcome]
      rw [if_neg none, counter]
      by_cases same : outcome = kind
      · simp [metricTotal, same]
      · simp [metricTotal, outcomeDimension, same]
  simp only [failureMetrics, metricTotal_append, count]
  simp

theorem length_retryable_add_terminal (failed : List OutboxEntry) :
    (retryableEntries failed).length + (terminalEntries failed).length = failed.length := by
  rw [retryableEntries, terminalEntries, Nat.add_comm, ← List.countP_eq_length_filter,
    ← List.countP_eq_length_filter,
    List.length_eq_countP_add_countP fun entry : OutboxEntry =>
      decide (entry.status = .permanentFailure)]
  simp

/-! ## What the steps of the service add -/

def Event.isFailure : Event → Bool
  | .finalised _ _ .failed => true
  | _ => false

/-- The number of claims finalised as failed. -/
def timesFailed (history : List Event) : Nat := history.countP Event.isFailure

/-- A step of the service stores as many failures as it records, and as many final ones as
become due. -/
structure Fails (cfg : Config) (system next : System) (failed : List OutboxEntry) : Prop where
  recorded : timesFailed next.history = timesFailed system.history + failed.length
  final : matchedCount OutboxEntry.isGivenUp next.store.outbox =
    matchedCount OutboxEntry.isGivenUp system.store.outbox + (terminalEntries failed).length

/-- Only a finalisation fails entries. -/
theorem fails_of_other (coherent : Coherent system) (edge : Edge cfg system action next)
    (other : ∀ worker times publishedAt, action ≠ .finalize worker times publishedAt) :
    Fails cfg system next [] := by
  constructor
  · show _ = timesFailed system.history
    have silent (events : List Event) (recorded : next.history = events ++ system.history)
        (none : ∀ event ∈ events, event.isFailure = false) :
        timesFailed next.history = timesFailed system.history := by
      rw [recorded, timesFailed, countP_append_of_silent events none, timesFailed]
    cases edge with
    | tick => rfl
    | initiate => rfl
    | claimsDone => rfl
    | abandon => rfl
    | finalize => exact absurd rfl (other _ _ _)
    | callback =>
        refine silent _ rfl fun event member => ?_
        obtain ⟨created, _, rfl⟩ := List.mem_map.mp member
        rfl
    | report => exact silent _ rfl (by simp [Event.isFailure])
    | _ => exact silent [_] rfl (by simp [Event.isFailure])
  · obtain ⟨fate, remains, new, spec⟩ := outboxStep_of_edge coherent.entryIds edge
    have pending : new.countP OutboxEntry.isGivenUp = 0 := by
      refine List.countP_eq_zero.mpr fun entry member => ?_
      obtain ⟨env, body, document, _, same⟩ := spec.created entry member
      rw [same]
      simp [OutboxEntry.isGivenUp, OutboxEntry.created]
    have same : ∀ entry ∈ system.store.outbox,
        (remains entry && (fate entry).isGivenUp) = entry.isGivenUp := by
      intro entry stored
      have stays : (fate entry).isGivenUp = entry.isGivenUp := by
        have change := spec.each entry stored
        generalize fate entry = after at change ⊢
        cases change with
        | kept => rfl
        | claimed acts phase processable recorded =>
            have isOpen := isOpen_of_isProcessable processable
            rcases entry.closed_iff with ⟨_, unfinal, _⟩ | ⟨closed, _⟩ | ⟨closed, _⟩
            · rw [unfinal]
              rfl
            · rw [isOpen] at closed
              cases closed
            · rw [isOpen] at closed
              cases closed
        | finalised acts =>
            obtain ⟨times, publishedAt, acts⟩ := acts
            exact absurd acts (other _ _ _)
      cases kept : remains entry with
      | true => rw [stays, Bool.true_and]
      | false =>
          have sent := (spec.removed entry stored kept).1
          simp [OutboxEntry.isGivenUp, sent]
    simp only [matchedCount, spec.outbox_eq, List.countP_append, pending, List.countP_map,
      List.countP_filter, terminalEntries, List.filter_nil, List.length_nil, Nat.add_zero]
    refine List.countP_congr fun entry stored => ?_
    rw [← same entry stored, Function.comp_apply, Bool.and_comm]

/-- A finalisation fails the entries its worker has to report, the final ones for good. -/
theorem fails_of_finalize (reachable : Reachable cfg system) {times : List Time}
    {publishedAt : Time}
    (accepted : system.step cfg (.finalize worker times publishedAt) = some next) :
    Fails cfg system next (next.run worker).failed := by
  have edge := edge_of_step accepted
  cases edge with
  | finalize phase past commits =>
      rename_i batch results rest since result
      obtain ⟨failed, reporting, agree⟩ := failuresAgree_of_finalize reachable phase accepted
      have same : result.finalizedFailed = failed := by
        have reported :
            RunPhase.reporting result.finalizedFailed rest = .reporting failed rest := by
          simpa [System.setRun, System.record] using reporting
        exact (RunPhase.reporting.inj reported).1
      obtain ⟨fate, spec⟩ := finalization_spec reachable.coherent.entryIds commits
      rw [reporting]
      show Fails cfg system _ failed
      subst same
      constructor
      · show timesFailed (finalizationEvents worker result ++ system.history) = _
        rw [timesFailed, List.countP_append, Nat.add_comm, timesFailed]
        simp [finalizationEvents, List.countP_append, List.countP_map, Function.comp_def,
          Event.isFailure]
      · show matchedCount OutboxEntry.isGivenUp result.outbox = _
        have distinct : UniqueBy OutboxEntry.id (terminalEntries result.finalizedFailed) := by
          have both := spec.distinct
          rw [List.map_append] at both
          exact UniqueBy.filter (List.nodup_append.mp both).2.1 _
        have inFailed {id : ObjectId}
            (listed : id ∈ (terminalEntries result.finalizedFailed).map OutboxEntry.id) :
            id ∈ result.finalizedFailed.map OutboxEntry.id := by
          obtain ⟨labelled, final, rfl⟩ := List.mem_map.mp listed
          exact List.mem_map_of_mem (List.mem_filter.mp final).1
        rw [spec.outbox_eq]
        refine matchedCount_map_of_listed reachable.coherent.entryIds distinct ?_ ?_ ?_
        · intro labelled final
          obtain ⟨⟨entry, stored, same⟩, _⟩ := spec.failed labelled (List.mem_filter.mp final).1
          exact List.mem_map.mpr ⟨entry, stored, same⟩
        · intro entry stored
          have after : fate entry ∈ result.outbox := spec.outbox_eq ▸ List.mem_map_of_mem stored
          rcases spec.each entry stored with ⟨kept, _, unlisted⟩ | ⟨_, change, _⟩
          · have silent : entry.id ∉
                (terminalEntries result.finalizedFailed).map OutboxEntry.id := fun listed =>
              unlisted (inFailed listed)
            simp [kept, silent]
          · rw [agree.terminal entry stored (fate entry) after change.id_eq]
            have changed : fate entry ≠ entry := fun same =>
              change.not_processing (same.symm ▸ change.processing)
            have processing := change.processing
            simp [OutboxEntry.isGivenUp, changed, processing]
        · intro entry stored listed
          rcases spec.each entry stored with ⟨_, _, unlisted⟩ | ⟨_, change, _⟩
          · exact absurd (inFailed listed) unlisted
          · simp [OutboxEntry.isGivenUp, change.processing]

/-- The failures an action of the service makes due. -/
def failedBy (next : System) : Action → List OutboxEntry
  | .finalize worker _ _ => (next.run worker).failed
  | _ => []

theorem fails_of_step (reachable : Reachable cfg system)
    (accepted : system.step cfg action = some next) :
    Fails cfg system next (failedBy next action) := by
  cases action with
  | finalize => exact fails_of_finalize reachable accepted
  | _ => exact fails_of_other reachable.coherent (edge_of_step accepted) (by simp)

/-! ## Runs -/

/-- A state some run of the service and of the counters reaches. -/
def Metered.Reachable (cfg : Config) (metered : Metered) : Prop :=
  Reaches (Metered.step cfg) Metered.initial metered

/-- What an action of the service leaves due, and what it adds to the count. -/
structure Follows (metered : Metered) (next : System) (action : Action) (after : Metered) :
    Prop where
  system : after.system = next
  counted : after.counted.Perm (metered.counted ++ failureMetrics true (failedBy next action))
  due : ∀ counter ∈ after.due, (∃ times publishedAt, action = .finalize counter.1 times
      publishedAt) ∨
    counter ∈ metered.due ∧ action ≠ .report counter.1 ∧ action ≠ .abandon counter.1

theorem follows_of_follow {metered after : Metered}
    (followed : metered.follow next action = some after) : Follows metered next action after := by
  have nothing : metered.counted ++ failureMetrics true [] = metered.counted :=
    List.append_nil _
  cases action with
  | finalize worker times publishedAt =>
      cases followed
      refine ⟨rfl, ?_, ?_⟩
      · simp only [Metered.counted, List.map_append, List.map_map, Function.comp_def,
          List.map_id', failedBy, List.append_assoc]
        exact (List.perm_append_comm.append_left _).append_left _
      · intro counter member
        rcases List.mem_append.mp member with before | new
        · exact Or.inr ⟨before, by simp, by simp⟩
        · obtain ⟨metric, _, rfl⟩ := List.mem_map.mp new
          exact Or.inl ⟨times, publishedAt, rfl⟩
  | report worker =>
      simp only [Metered.follow] at followed
      split at followed
      · cases followed
      · rename_i settled
        cases followed
        refine ⟨rfl, nothing.symm ▸ .refl _, fun counter member => Or.inr ⟨member, ?_, by simp⟩⟩
        rintro same
        injection same with same
        refine settled (List.any_eq_true.mpr ⟨counter, member, ?_⟩)
        simp [Metered.isDueTo, same]
  | abandon worker =>
      cases followed
      refine ⟨rfl, ?_, ?_⟩
      · have split := (List.filter_append_perm (Metered.isDueTo worker) metered.due).map Prod.snd
        rw [List.map_append] at split
        have ends := (List.perm_append_comm.trans split).append_left metered.emitted
        show Metered.counted _ |>.Perm (metered.counted ++ failureMetrics true [])
        rw [nothing]
        refine (List.perm_append_comm.append_left _).trans ?_
        rw [← List.append_assoc, List.append_assoc metered.emitted]
        exact ends.append_right _
      · intro counter member
        obtain ⟨before, other⟩ := List.mem_filter.mp member
        refine Or.inr ⟨before, by simp, ?_⟩
        rintro same
        injection same with same
        simp [Metered.isDueTo, same] at other
  | _ =>
      cases followed
      exact ⟨rfl, nothing.symm ▸ .refl _, fun counter member => Or.inr ⟨member, by simp, by simp⟩⟩

/-- What the counters of a state say of it. -/
structure CountersAgree (metered : Metered) : Prop where
  final : metricTotal "outbox.publish_failed" "permanent" metered.counted =
    matchedCount OutboxEntry.isGivenUp metered.system.store.outbox
  failures : metricTotal "outbox.publish_failed" "retryable" metered.counted +
      metricTotal "outbox.publish_failed" "permanent" metered.counted =
    timesFailed metered.system.history
  owed : ∀ counter ∈ metered.due, ∃ failed rest,
    metered.system.run counter.1 = .reporting failed rest

/-- A run goes on reporting until it has reported or stops. -/
theorem Edge.reporting_kept (edge : Edge cfg system action next) {failed rest : List OutboxEntry}
    (reporting : system.run worker = .reporting failed rest) (silent : action ≠ .report worker)
    (goes : action ≠ .abandon worker) : next.run worker = .reporting failed rest := by
  obtain ⟨events, _, moves⟩ := edge.runStep worker
  rw [reporting] at moves
  generalize begun : RunPhase.reporting failed rest = before, next.run worker = after at moves ⊢
  cases moves with
  | other => rfl
  | report => exact absurd rfl silent
  | abandon => exact absurd rfl goes
  | _ => cases begun

/-- After its transaction a run has its failures to report. -/
theorem Edge.finalize_reports {times : List Time} {publishedAt : Time}
    (edge : Edge cfg system (.finalize worker times publishedAt) next) :
    ∃ failed rest, next.run worker = .reporting failed rest := by
  cases edge with
  | finalize => exact ⟨_, _, Function.update_self ..⟩

theorem countersAgree_step {metered after : Metered} {act : MeteredAction}
    (agree : CountersAgree metered) (reachable : Reachable cfg metered.system)
    (accepted : metered.step cfg act = some after) :
    CountersAgree after ∧ Reachable cfg after.system := by
  cases act with
  | emit worker =>
      obtain ⟨counter, found, rfl⟩ := Option.map_eq_some_iff.mp accepted
      have member := List.mem_of_find?_eq_some found
      have counted : (metered.emitted ++ [counter.2] ++ (metered.due.erase counter).map Prod.snd ++
          metered.lost).Perm metered.counted := by
        have split := (List.perm_cons_erase member).symm.map Prod.snd
        rw [List.map_cons] at split
        rw [List.append_assoc metered.emitted, List.singleton_append]
        exact (split.append_left _).append_right _
      refine ⟨⟨?_, ?_, fun other due => agree.owed other (List.mem_of_mem_erase due)⟩,
        reachable⟩
      · exact (metricTotal_perm _ _ counted).trans agree.final
      · have retryable := metricTotal_perm "outbox.publish_failed" "retryable" counted
        have permanent := metricTotal_perm "outbox.publish_failed" "permanent" counted
        exact (congrArg₂ (· + ·) retryable permanent).trans agree.failures
  | act action =>
      obtain ⟨next, steps, followed⟩ := Option.bind_eq_some_iff.mp accepted
      obtain ⟨rfl, counted, due⟩ := follows_of_follow followed
      have fails := fails_of_step reachable steps
      obtain ⟨retryable, permanent⟩ := metricTotal_failureMetrics (failedBy after.system action)
      have lengths := length_retryable_add_terminal (failedBy after.system action)
      refine ⟨⟨?_, ?_, ?_⟩, reachable.step steps⟩
      · rw [metricTotal_perm _ _ counted, metricTotal_append, agree.final, permanent,
          fails.final]
        push_cast
        rfl
      · rw [metricTotal_perm _ _ counted, metricTotal_perm _ _ counted, metricTotal_append,
          metricTotal_append, retryable, permanent, fails.recorded, ← lengths]
        push_cast
        linarith [agree.failures]
      · intro counter member
        rcases due counter member with ⟨times, publishedAt, rfl⟩ | ⟨before, reports, stops⟩
        · exact (edge_of_step steps).finalize_reports
        · obtain ⟨failed, rest, reporting⟩ := agree.owed counter before
          exact ⟨failed, rest, (edge_of_step steps).reporting_kept reporting reports stops⟩

theorem Metered.Reachable.countersAgree {metered : Metered} (reachable : metered.Reachable cfg) :
    CountersAgree metered ∧ ObjectProcessor.Reachable cfg metered.system := by
  refine Reaches.induction (motive := fun metered =>
    CountersAgree metered ∧ ObjectProcessor.Reachable cfg metered.system) reachable ?_ ?_
  · exact ⟨⟨rfl, by simp [Metered.initial, Metered.counted, System.initial, timesFailed],
      by simp [Metered.initial]⟩, .refl _⟩
  · rintro before action after _ ⟨agree, reachable⟩ accepted
    exact countersAgree_step agree reachable accepted

/-- While metrics are enabled, the failures counted are what the store says: as many permanent
ones as entries given up, and with the retryable ones as many as claims were finalised as failed.
When no run is about to report and none has stopped before its counters, all are emitted. -/
theorem failure_counters_agree {metered : Metered} (reachable : metered.Reachable cfg) :
    metricTotal "outbox.publish_failed" "permanent" metered.counted =
        matchedCount OutboxEntry.isGivenUp metered.system.store.outbox ∧
      metricTotal "outbox.publish_failed" "retryable" metered.counted +
          metricTotal "outbox.publish_failed" "permanent" metered.counted =
        timesFailed metered.system.history ∧
      ((∀ worker failed rest, metered.system.run worker ≠ .reporting failed rest) →
        metered.lost = [] → metered.emitted = metered.counted) := by
  obtain ⟨agree, _⟩ := reachable.countersAgree
  refine ⟨agree.final, agree.failures, fun settled none => ?_⟩
  have nothingDue : metered.due = [] := by
    refine List.eq_nil_iff_forall_not_mem.mpr fun counter member => ?_
    obtain ⟨failed, rest, reporting⟩ := agree.owed counter member
    exact settled _ _ _ reporting
  simp [Metered.counted, nothingDue, none]

namespace Sample

/-- The one attempt at a delivery fails, and its counter is emitted. -/
def countedFailure : List MeteredAction :=
  Sample.failure.map .act ++ [.emit "worker", .act (.report "worker")]

/-- The end of the run. -/
def counted : Metered :=
  (runActions (Metered.step oneAttempt) Metered.initial countedFailure).get (by decide)

end Sample

/-- The sample has given up one entry and has counted it. -/
theorem failure_counters_agree_sample :
    Sample.counted.emitted = [⟨"outbox.publish_failed", 1, outcomeDimension "permanent"⟩] ∧
      metricTotal "outbox.publish_failed" "permanent" Sample.counted.counted =
        matchedCount OutboxEntry.isGivenUp Sample.counted.system.store.outbox := by
  have reachable : Sample.counted.Reachable Sample.oneAttempt :=
    ⟨Sample.countedFailure, (Option.some_get _).symm⟩
  exact ⟨by decide, (failure_counters_agree reachable).1⟩

end ObjectProcessor
