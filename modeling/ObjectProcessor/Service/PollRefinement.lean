import ObjectProcessor.Service.Origins
import ObjectProcessor.Service.PollRun

/-!
# A poll run is a run of the service

The steps of one worker, with nobody else acting meanwhile, take the service where the
function of a poll run says, whichever answers, readings and errors the run meets.
-/

namespace ObjectProcessor

open Library

variable {cfg : Config} {system next : System} {worker : WorkerId}

/-- The batches the worker has published, the latest first. -/
def requestsOf (worker : WorkerId) (history : List Event) : List (List ObjectId) :=
  history.filterMap fun event =>
    match event with
    | .published other batch _ => if other = worker then some batch else none
    | _ => none

/-- The entries the worker has audited. -/
def auditsOf (worker : WorkerId) (history : List Event) : List ObjectId :=
  history.filterMap fun event =>
    match event with
    | .audited other entry => if other = worker then some entry else none
    | _ => none

theorem requestsOf_append (worker : WorkerId) (events history : List Event) :
    requestsOf worker (events ++ history) = requestsOf worker events ++ requestsOf worker history :=
  List.filterMap_append

theorem auditsOf_append (worker : WorkerId) (events history : List Event) :
    auditsOf worker (events ++ history) = auditsOf worker events ++ auditsOf worker history :=
  List.filterMap_append

/-- A step of the worker, or one in which time passes. -/
def IsOwnStep (worker : WorkerId) (action : Action) : Prop :=
  action.worker? = some worker ∨ ∃ now, action = .tick now

/-- The second state is reached from the first by steps of the worker. -/
def ReachesAlone (cfg : Config) (worker : WorkerId) (before after : System) : Prop :=
  ∃ actions, runActions (System.step cfg) before actions = some after ∧
    ∀ action ∈ actions, IsOwnStep worker action

theorem IsOwnStep.other {action : Action} (own : IsOwnStep worker action) {other : WorkerId}
    (apart : other ≠ worker) : action.worker? ≠ some other := by
  rcases own with ofWorker | ⟨now, rfl⟩
  · rw [ofWorker]
    exact fun same => apart (Option.some.inj same).symm
  · simp [Action.worker?]

namespace ReachesAlone

variable {before middle after : System}

theorem refl (before : System) : ReachesAlone cfg worker before before := ⟨[], rfl, by simp⟩

theorem single {action : Action} (accepted : before.step cfg action = some after)
    (own : IsOwnStep worker action) : ReachesAlone cfg worker before after :=
  ⟨[action], by rw [runActions_singleton, accepted], by simpa using own⟩

theorem trans (first : ReachesAlone cfg worker before middle)
    (second : ReachesAlone cfg worker middle after) : ReachesAlone cfg worker before after := by
  obtain ⟨front, frontRun, frontOwn⟩ := first
  obtain ⟨rest, restRun, restOwn⟩ := second
  refine ⟨front ++ rest, ?_, fun action member => ?_⟩
  · rw [runActions_append, frontRun]
    exact restRun
  · exact (List.mem_append.mp member).elim (frontOwn action) (restOwn action)

theorem reach (alone : ReachesAlone cfg worker before after) :
    Reaches (System.step cfg) before after := by
  obtain ⟨actions, run, _⟩ := alone
  exact ⟨actions, run⟩

end ReachesAlone

/-- The worker alone has led from the first state to the second, with these requests, the
latest first, and these audits, and has left this outbox and metadata. -/
structure Performs (cfg : Config) (worker : WorkerId) (before after : System)
    (requests : List (List ObjectId)) (audits : List ObjectId) (outbox : List OutboxEntry)
    (metadata : List MetadataDocument) : Prop where
  alone : ReachesAlone cfg worker before after
  others : ∀ other, other ≠ worker → after.run other = before.run other
  store : after.store = { before.store with outbox, metadata }
  requested : requestsOf worker after.history = requests ++ requestsOf worker before.history
  audited : auditsOf worker after.history = audits ++ auditsOf worker before.history

namespace Performs

variable {before middle after : System} {requests : List (List ObjectId)}
  {audits : List ObjectId} {outbox : List OutboxEntry} {metadata : List MetadataDocument}

theorem reach (performs : Performs cfg worker before after requests audits outbox metadata) :
    Reaches (System.step cfg) before after := performs.alone.reach

theorem refl (before : System) :
    Performs cfg worker before before [] [] before.store.outbox before.store.metadata :=
  ⟨.refl before, fun _ _ => rfl, rfl, rfl, rfl⟩

theorem trans {laterRequests : List (List ObjectId)} {laterAudits : List ObjectId}
    {laterOutbox : List OutboxEntry} {laterMetadata : List MetadataDocument}
    (first : Performs cfg worker before middle requests audits outbox metadata)
    (second : Performs cfg worker middle after laterRequests laterAudits laterOutbox
      laterMetadata) :
    Performs cfg worker before after (laterRequests ++ requests) (laterAudits ++ audits)
      laterOutbox laterMetadata where
  alone := first.alone.trans second.alone
  others other apart := (second.others other apart).trans (first.others other apart)
  store := by rw [second.store, first.store]
  requested := by rw [second.requested, first.requested, List.append_assoc]
  audited := by rw [second.audited, first.audited, List.append_assoc]

/-- Further steps that leave the store alone. -/
theorem trans_quiet {laterRequests : List (List ObjectId)} {laterAudits : List ObjectId}
    (first : Performs cfg worker before middle requests audits outbox metadata)
    (second : Performs cfg worker middle after laterRequests laterAudits middle.store.outbox
      middle.store.metadata) :
    Performs cfg worker before after (laterRequests ++ requests) (laterAudits ++ audits) outbox
      metadata := by
  have sameOutbox : middle.store.outbox = outbox := by rw [first.store]
  have sameMetadata : middle.store.metadata = metadata := by rw [first.store]
  rw [sameOutbox, sameMetadata] at second
  exact first.trans second

/-- A single step of the worker, from what it records. -/
theorem single {action : Action} (accepted : before.step cfg action = some after)
    (own : IsOwnStep worker action) (events : List Event)
    (recorded : after.history = events ++ before.history)
    (requested : requestsOf worker events = requests) (audited : auditsOf worker events = audits)
    (store : after.store = { before.store with outbox, metadata }) :
    Performs cfg worker before after requests audits outbox metadata where
  alone := .single accepted own
  others other apart := (edge_of_step accepted).run_of_other (own.other apart)
  store
  requested := by rw [recorded, requestsOf_append, requested]
  audited := by rw [recorded, auditsOf_append, audited]

end Performs

/-- Time passes. -/
theorem performs_tick (cfg : Config) (worker : WorkerId) {now : Time} (later : system.clock ≤ now) :
    Performs cfg worker system { system with clock := now } [] [] system.store.outbox
      system.store.metadata := by
  have accepted : system.step cfg (.tick now) = some { system with clock := now } := if_pos later
  exact .single accepted (Or.inr ⟨now, rfl⟩) [] rfl rfl rfl rfl

/-- The run ends early. -/
theorem performs_abandon (cfg : Config) (busy : system.run worker ≠ .idle) :
    Performs cfg worker system (system.setRun worker .idle) [] [] system.store.outbox
      system.store.metadata := by
  have accepted : system.step cfg (.abandon worker) = some (system.setRun worker .idle) := by
    cases phase : system.run worker with
    | idle => exact absurd phase busy
    | _ => simp only [System.step, System.abandon, phase]
  exact .single accepted (Or.inl rfl) [] rfl rfl rfl rfl

theorem performs_start (cfg : Config) (idle : system.run worker = .idle) :
    ∃ next, Performs cfg worker system next [] [] system.store.outbox system.store.metadata ∧
      next.clock = system.clock ∧ next.run worker = .claiming system.clock [] := by
  have accepted : system.step cfg (.start worker) =
      some ((system.setRun worker (.claiming system.clock [])).record [.runStarted worker]) := by
    simp only [System.step, System.start, idle]
  refine ⟨_, .single accepted (Or.inl rfl) [.runStarted worker] rfl rfl rfl rfl, rfl,
    Function.update_self ..⟩

/-! ## Claims -/

/-- What a claim leaves alone. -/
theorem Edge.claim_frame {id : ObjectId} (edge : Edge cfg system (.claim worker id) next) :
    next.clock = system.clock ∧ next.store = { system.store with outbox := next.store.outbox } ∧
      ∃ attempt, next.history = .claimed worker id attempt :: system.history := by
  cases edge with
  | claim => exact ⟨rfl, rfl, _, rfl⟩

/-- A turn of the claim loop that finds an entry. -/
theorem performs_claim {pick : LeastPick OutboxEntry.createdAt}
    (unique : UniqueBy OutboxEntry.id system.store.outbox) {now : Time} {held : List OutboxEntry}
    (phase : system.run worker = .claiming now held)
    (room : held.length < cfg.outboxQueryLimit) {entry : OutboxEntry}
    (found : pick.find (isProcessable cfg now) system.store.outbox = some entry) :
    ∃ next, Performs cfg worker system next [] []
        (updateMany (fun other => decide (other.id = entry.id)) (claimUpdate cfg worker now)
          system.store.outbox) system.store.metadata ∧
      next.clock = system.clock ∧
      next.run worker = .claiming now (held ++ [claimedEntry cfg worker now entry]) := by
  obtain ⟨next, accepted, claiming, outbox⟩ := claim_step_of_find unique phase room found
  obtain ⟨clock, store, attempt, recorded⟩ := (edge_of_step accepted).claim_frame
  exact ⟨next, .single accepted (Or.inl rfl) [_] recorded rfl rfl (outbox ▸ store), clock,
    claiming⟩

/-- The claim loop from one of its turns on. -/
theorem performs_claimRun (env : PollEnv) (remaining index : Nat) {run : ClaimRun}
    (phase : system.run worker = .claiming env.now run.claimed)
    (stored : system.store.outbox = run.outbox) (going : run.threw = false)
    (room : run.claimed.length + remaining = cfg.outboxQueryLimit)
    (unique : UniqueBy OutboxEntry.id run.outbox) :
    ∃ last, Performs cfg worker system last [] []
        (claimRun cfg worker env remaining index run).outbox system.store.metadata ∧
      last.clock = system.clock ∧
      last.run worker = .claiming env.now (claimRun cfg worker env remaining index run).claimed ∧
      ((claimRun cfg worker env remaining index run).threw = false →
        cfg.outboxQueryLimit ≤ (claimRun cfg worker env remaining index run).claimed.length ∨
          (claimRun cfg worker env remaining index run).outbox.all
            (fun entry => !isProcessable cfg env.now entry) = true) := by
  induction remaining generalizing index system run with
  | zero =>
      refine ⟨system, stored ▸ .refl system, rfl, phase, fun _ => Or.inl ?_⟩
      rw [claimRun]
      omega
  | succ remaining ih =>
      rw [claimRun]
      by_cases fails : env.claimFails = some index
      · simp only [fails, ↓reduceIte]
        exact ⟨system, stored ▸ .refl system, rfl, phase, by simp⟩
      · simp only [fails, ↓reduceIte, findOneAndUpdate]
        cases found : (env.picks index).find (isProcessable cfg env.now) run.outbox with
        | none =>
            refine ⟨system, stored ▸ .refl system, rfl, phase, fun _ => Or.inr ?_⟩
            refine List.all_eq_true.mpr fun entry member => ?_
            simpa using (env.picks index).exhausted found entry member
        | some entry =>
            obtain ⟨next, performs, clock, claiming⟩ :=
              performs_claim (stored ▸ unique) phase (by omega) (stored ▸ found)
            have outbox : next.store.outbox =
                updateMany (fun other => decide (other.id = entry.id))
                  (claimUpdate cfg worker env.now) run.outbox := by
              rw [performs.store, stored]
            let turn : ClaimRun := { run with
              claimed := run.claimed ++ [claimedEntry cfg worker env.now entry]
              outbox := updateMany (fun other => decide (other.id = entry.id))
                (claimUpdate cfg worker env.now) run.outbox
              log := run.log ++ if entry.status = .processing then [.reclaimed entry] else [] }
            have left : turn.claimed.length + remaining = cfg.outboxQueryLimit := by
              simp only [turn, List.length_append, List.length_singleton]
              omega
            have uniqueAfter : UniqueBy OutboxEntry.id turn.outbox :=
              unique.updateMany fun _ => rfl
            have stays : turn.threw = false := going
            obtain ⟨last, rest, lastClock, lastPhase, ended⟩ :=
              ih (index + 1) claiming outbox stays left uniqueAfter
            have metadata : next.store.metadata = system.store.metadata := by
              rw [performs.store]
            rw [metadata] at rest
            exact ⟨last, performs.trans rest, lastClock.trans clock, lastPhase, ended⟩

/-! ## Reports -/

theorem untilThrow_of_all {α : Type*} {values : List (Option α)}
    (all : ∀ value ∈ values, value.isSome = true) :
    (untilThrow values).1.map some = values ∧ (untilThrow values).2 = false := by
  induction values with
  | nil => exact ⟨rfl, rfl⟩
  | cons value rest ih =>
      have tail := ih fun other member => all other (List.mem_cons_of_mem _ member)
      cases value with
      | none => cases all none (List.mem_cons_self ..)
      | some value => exact ⟨by rw [untilThrow, List.map_cons, tail.1], tail.2⟩

/-- The accounts of an entry can be built, and its customer reference masked. -/
def Reportable (entry : OutboxEntry) : Prop :=
  canConvert (entry.payload.metadata.get? "sbi") = true ∧
    canConvert (entry.payload.metadata.get? "crn") = true

/-- What callbacks have stored can be reported. -/
theorem Reachable.reportable (reachable : Reachable cfg system) {entry : OutboxEntry}
    (stored : entry ∈ system.store.outbox) : Reportable entry :=
  (reachable.originated.entries entry stored).canConvert

/-- When every entry can be reported, the reports are those of the terminal query, whether or
not the count that comes first skips it. -/
theorem logTerminalFailuresIfAny_spec (cfg : Config) {outbox : List OutboxEntry}
    (fileIds : List EntryId)
    (reportable : ∀ entry ∈ outbox, Reportable entry) :
    (logTerminalFailuresIfAny cfg outbox fileIds).2.1.map some =
        (terminalFailuresIn cfg outbox fileIds).map terminalFailureAudit ∧
      (logTerminalFailuresIfAny cfg outbox fileIds).2.2 = false := by
  have found {entry : OutboxEntry} (member : entry ∈ terminalFailuresIn cfg outbox fileIds) :
      Reportable entry := reportable entry (List.mem_filter.mp member).1
  rw [logTerminalFailuresIfAny]
  split
  · rename_i none
    have nothing : terminalFailuresIn cfg outbox fileIds = [] := by
      refine List.filter_eq_nil_iff.mpr fun entry member matched => ?_
      refine List.countP_eq_zero.mp none entry member ?_
      simp only [Bool.and_eq_true, decide_eq_true_eq] at matched ⊢
      exact ⟨matched.1.1, matched.2⟩
    simp [nothing]
  · have lines : ∀ line ∈ (terminalFailuresIn cfg outbox fileIds).map (fun entry =>
        if canConvert (entry.payload.metadata.get? "crn") then some (terminalFailureLog entry)
        else none), line.isSome = true := by
      simp only [List.mem_map]
      rintro _ ⟨entry, member, rfl⟩
      simp [(found member).2]
    have events : ∀ event ∈ (terminalFailuresIn cfg outbox fileIds).map terminalFailureAudit,
        event.isSome = true := by
      simp only [List.mem_map]
      rintro _ ⟨entry, member, rfl⟩
      simp [terminalFailureAudit, buildAuditAccounts, (found member).1]
    simp only [(untilThrow_of_all lines).2, Bool.false_eq_true, ↓reduceIte]
    exact untilThrow_of_all events

/-- What the reports of a batch add to a run, and how they end. -/
structure Handled (cfg : Config) (reportFails : Bool) (failed : List OutboxEntry)
    (run after : PollRun) : Prop where
  outbox : after.outbox = run.outbox
  metadata : after.metadata = run.metadata
  requests : after.requests = run.requests
  threw : after.threw = true ↔ failed ≠ [] ∧ reportFails = true
  audits : ∃ events, after.audits = run.audits ++ events ∧
    events.map some = (if failed ≠ [] ∧ reportFails = true then []
      else terminalFailuresIn cfg run.outbox (failed.map getEntryId)).map terminalFailureAudit

theorem handleFailedEntries_spec (cfg : Config) (isMetricsEnabled reportFails : Bool)
    (failed : List OutboxEntry) (failedResults : List PublishFailure) (run : PollRun)
    (going : run.threw = false) (reportable : ∀ entry ∈ run.outbox, Reportable entry) :
    Handled cfg reportFails failed run
      (handleFailedEntries cfg isMetricsEnabled reportFails failed failedResults run) := by
  rw [handleFailedEntries]
  by_cases none : failed = []
  · have nothing : terminalFailuresIn cfg run.outbox [] = [] := by simp [terminalFailuresIn]
    simp only [none, ↓reduceIte]
    exact ⟨rfl, rfl, rfl, by simp [going], [], by simp, by simp [nothing]⟩
  · simp only [none, ↓reduceIte]
    cases reportFails with
    | true => exact ⟨rfl, rfl, rfl, by simp [none], [], by simp, by simp [none]⟩
    | false =>
        obtain ⟨events, ended⟩ := logTerminalFailuresIfAny_spec cfg
          (failed.map getEntryId) reportable
        exact ⟨rfl, rfl, rfl, by simp [ended], _, rfl, by simpa using events⟩

/-! ## A batch -/

theorem performs_publish (cfg : Config) {pending : List OutboxEntry}
    (phase : system.run worker = .publishing pending) (answer : PublishAnswer) :
    ∃ next, Performs cfg worker system next [(pending.take batchSize).map OutboxEntry.id] []
        system.store.outbox system.store.metadata ∧ next.clock = system.clock ∧
      next.run worker = .finalizing (pending.take batchSize)
        (publishDocumentUploadMessageBatch (pending.take batchSize) answer)
        (pending.drop batchSize) system.clock := by
  have accepted : system.step cfg (.publish worker answer) =
      some ((system.setRun worker (.finalizing (pending.take batchSize)
        (publishDocumentUploadMessageBatch (pending.take batchSize) answer)
        (pending.drop batchSize) system.clock)).record
          [.published worker ((pending.take batchSize).map OutboxEntry.id)
            (publishDocumentUploadMessageBatch (pending.take batchSize) answer)]) := by
    simp only [System.step, System.publish, phase]
  refine ⟨_, .single accepted (Or.inl rfl) [_] rfl (by simp [requestsOf]) rfl rfl, rfl,
    Function.update_self ..⟩

theorem performs_finalize {batch rest : List OutboxEntry} {results : PublishResults}
    {since : Time} (phase : system.run worker = .finalizing batch results rest since)
    {times : List Time} {publishedAt : Time}
    (calls : times.length = results.successful.length + results.failed.length)
    (past : ∀ time ∈ publishedAt :: times, since ≤ time ∧ time ≤ system.clock)
    {result : BatchFinalization}
    (commits : result = finalizeBatch cfg worker batch results times publishedAt
      system.store.outbox system.store.metadata) :
    ∃ next, Performs cfg worker system next [] [] result.outbox result.metadata ∧
      next.clock = system.clock ∧ next.run worker = .reporting result.finalizedFailed rest := by
  have accepted : system.step cfg (.finalize worker times publishedAt) =
      some (({ system with
        store := { system.store with outbox := result.outbox, metadata := result.metadata } }.setRun
          worker (.reporting result.finalizedFailed rest)).record
            (finalizationEvents worker result)) := by
    simp only [System.step, System.finalize, phase, commits]
    exact if_pos ⟨calls, past⟩
  refine ⟨_, .single accepted (Or.inl rfl) _ rfl ?_ ?_ rfl, rfl, Function.update_self ..⟩
  · refine List.filterMap_eq_nil_iff.mpr fun event member => ?_
    rcases mem_finalizationEvents.mp member with ⟨_, _, rfl⟩ | ⟨_, _, rfl⟩ <;> rfl
  · refine List.filterMap_eq_nil_iff.mpr fun event member => ?_
    rcases mem_finalizationEvents.mp member with ⟨_, _, rfl⟩ | ⟨_, _, rfl⟩ <;> rfl

/-- The phase of a run when the entries that remain are due. -/
def remaining (rest : List OutboxEntry) : RunPhase := if rest = [] then .idle else .publishing rest

theorem performs_report (cfg : Config) {failed rest : List OutboxEntry}
    (phase : system.run worker = .reporting failed rest) :
    ∃ next, Performs cfg worker system next []
        ((terminalFailuresIn cfg system.store.outbox (failed.map getEntryId)).map OutboxEntry.id)
        system.store.outbox system.store.metadata ∧
      next.clock = system.clock ∧ next.run worker = remaining rest := by
  have accepted : system.step cfg (.report worker) =
      some ((system.setRun worker (remaining rest)).record
        ((system.terminalFailures cfg failed).map fun entry => .audited worker entry.id)) := by
    simp only [System.step, System.report, phase, remaining]
  refine ⟨_, .single accepted (Or.inl rfl) _ rfl ?_ ?_ rfl, rfl, Function.update_self ..⟩
  · simp [requestsOf, List.filterMap_map]
  · simp [auditsOf, List.filterMap_map, System.terminalFailures, terminalFailuresIn]

/-- What one turn of the loop over the batches adds to a run, and where the worker is then. -/
structure BatchRun (cfg : Config) (worker : WorkerId) (pending : List OutboxEntry)
    (run after : PollRun) (before last : System) : Prop where
  requests : after.requests = run.requests ++ [pending.take batchSize]
  performs : ∃ (audited : List OutboxEntry) (events : List FailureAudit),
    after.audits = run.audits ++ events ∧ events.map some = audited.map terminalFailureAudit ∧
    Performs cfg worker before last [(pending.take batchSize).map OutboxEntry.id]
      (audited.map OutboxEntry.id) after.outbox after.metadata
  phase : last.run worker = if after.threw then .idle else remaining (pending.drop batchSize)

theorem performs_publishBatch (reachable : Reachable cfg system) (isMetricsEnabled : Bool)
    (env : BatchEnv) {pending : List OutboxEntry}
    (phase : system.run worker = .publishing pending)
    {run : PollRun} (outbox : system.store.outbox = run.outbox)
    (metadata : system.store.metadata = run.metadata) (going : run.threw = false) {until' : Time}
    (calls : ∀ index, system.clock ≤ env.callTime index ∧ env.callTime index ≤ until')
    (dated : system.clock ≤ env.publishedAt ∧ env.publishedAt ≤ until') :
    ∃ last, last.clock = until' ∧ BatchRun cfg worker pending run
      (publishBatch cfg worker isMetricsEnabled env (pending.take batchSize) run) system last := by
  obtain ⟨asked, publishes, askedClock, finalizing⟩ :=
    performs_publish cfg phase (env.answer (pending.take batchSize))
  have later : asked.clock ≤ until' := askedClock ▸ dated.1.trans dated.2
  have waits := publishes.trans_quiet (performs_tick cfg worker later)
  rw [List.nil_append, List.nil_append, outbox, metadata] at waits
  rw [publishBatch]
  generalize publishDocumentUploadMessageBatch (pending.take batchSize)
    (env.answer (pending.take batchSize)) = results at finalizing ⊢
  cases fails : env.transactionFails with
  | true =>
      have busy : ({ asked with clock := until' } : System).run worker ≠ .idle := by
        simp [finalizing]
      have gives := waits.trans_quiet (performs_abandon cfg busy)
      refine ⟨_, rfl, rfl, ⟨[], [], (List.append_nil _).symm, rfl, gives⟩, ?_⟩
      simp [System.setRun]
  | false =>
      simp only [Bool.false_eq_true, ↓reduceIte]
      generalize timesEq : (List.range (results.successful.length + results.failed.length)).map
        env.callTime = times
      generalize commits : finalizeBatch cfg worker (pending.take batchSize) results times
        env.publishedAt run.outbox run.metadata = result
      have readings : ∀ time ∈ env.publishedAt :: times, system.clock ≤ time ∧ time ≤ until' := by
        intro time member
        rcases List.mem_cons.mp member with rfl | called
        · exact dated
        · rw [← timesEq] at called
          obtain ⟨index, _, rfl⟩ := List.mem_map.mp called
          exact calls index
      have sameOutbox : asked.store.outbox = run.outbox := by rw [publishes.store, outbox]
      have sameMetadata : asked.store.metadata = run.metadata := by rw [publishes.store, metadata]
      have awaiting : ({ asked with clock := until' } : System).run worker =
        .finalizing (pending.take batchSize) results (pending.drop batchSize) system.clock :=
          finalizing
      have decided : result = finalizeBatch cfg worker (pending.take batchSize) results times
          env.publishedAt asked.store.outbox asked.store.metadata := by
        rw [← commits, sameOutbox, sameMetadata]
      obtain ⟨stored, finalizes, storedClock, reporting⟩ :=
        performs_finalize awaiting (by simp [← timesEq]) readings decided
      have settles := waits.trans finalizes
      have storedOutbox : stored.store.outbox = result.outbox := by rw [settles.store]
      have reportable : ∀ entry ∈ result.outbox, Reportable entry := fun entry member =>
        (reachable.reaches settles.reach).reportable (storedOutbox ▸ member)
      have handled := handleFailedEntries_spec cfg isMetricsEnabled env.reportFails
        result.finalizedFailed results.failed (finalisedRun result (publishedRun
          (pending.take batchSize) (env.answer (pending.take batchSize)) results run)) going
        reportable
      generalize handleFailedEntries cfg isMetricsEnabled env.reportFails result.finalizedFailed
        results.failed (finalisedRun result (publishedRun (pending.take batchSize)
          (env.answer (pending.take batchSize)) results run)) = after at handled ⊢
      obtain ⟨events, added, audited⟩ := handled.audits
      have requests : after.requests = run.requests ++ [pending.take batchSize] :=
        handled.requests
      by_cases gaveUp : result.finalizedFailed ≠ [] ∧ env.reportFails = true
      · have threw := handled.threw.mpr gaveUp
        have busy : stored.run worker ≠ .idle := by simp [reporting]
        have gives := settles.trans_quiet (performs_abandon cfg busy)
        rw [if_pos gaveUp] at audited
        have outboxEq : after.outbox = result.outbox := handled.outbox
        have metadataEq : after.metadata = result.metadata := handled.metadata
        simp only [threw, ↓reduceIte]
        refine ⟨stored.setRun worker .idle, storedClock, requests,
          ⟨[], events, added, audited, ?_⟩, ?_⟩
        · rw [outboxEq, metadataEq]
          simpa using gives
        · simp [System.setRun, threw]
      · obtain ⟨last, reports, lastClock, ends⟩ := performs_report cfg reporting
        have whole := settles.trans_quiet reports
        simp only [storedOutbox, List.append_nil, List.nil_append] at whole
        have stays : after.threw = false := by
          by_contra threw
          exact gaveUp (handled.threw.mp (by simpa using threw))
        rw [if_neg gaveUp] at audited
        have outboxEq : after.outbox = result.outbox := handled.outbox
        have metadataEq : after.metadata = result.metadata := handled.metadata
        simp only [stays, Bool.false_eq_true, ↓reduceIte]
        refine ⟨last, lastClock.trans storedClock, requests, ⟨_, events, added, audited, ?_⟩, ?_⟩
        · show Performs cfg worker system last _ _ after.outbox after.metadata
          rw [outboxEq, metadataEq]
          exact whole
        · simpa using ends

/-! ## The run -/

/-- Readings of the clock that do not go back, from the time the claims were made at. -/
structure Timely (env : PollEnv) (clock : Nat → Time) : Prop where
  start : clock 0 = env.now
  calls : ∀ index call, clock index ≤ (env.batches index).callTime call ∧
    (env.batches index).callTime call ≤ clock (index + 1)
  dated : ∀ index, clock index ≤ (env.batches index).publishedAt ∧
    (env.batches index).publishedAt ≤ clock (index + 1)

/-- What a run has done since a state of the service, and where the service is then. -/
structure RunsTo (cfg : Config) (worker : WorkerId) (run after : PollRun)
    (before last : System) : Prop where
  performs : ∃ (requests : List (List OutboxEntry)) (audited : List OutboxEntry)
    (events : List FailureAudit), after.requests = run.requests ++ requests ∧
      after.audits = run.audits ++ events ∧
      (events.map some).Perm (audited.map terminalFailureAudit) ∧
      Performs cfg worker before last
        (requests.map fun batch => batch.map OutboxEntry.id).reverse (audited.map OutboxEntry.id)
        after.outbox after.metadata
  idle : last.run worker = .idle

theorem performs_publishBatches (isMetricsEnabled : Bool) {env : PollEnv} {clock : Nat → Time}
    (timely : Timely env clock) (turns index : Nat) {pending : List OutboxEntry}
    (reachable : Reachable cfg system) (phase : system.run worker = remaining pending)
    (now : system.clock = clock index) (enough : pending.length ≤ turns) {run : PollRun}
    (outbox : system.store.outbox = run.outbox) (metadata : system.store.metadata = run.metadata)
    (going : run.threw = false) :
    ∃ last, RunsTo cfg worker run
      (publishBatches cfg worker isMetricsEnabled env.batches turns index pending run)
      system last := by
  -- The turns are enough, since every batch takes an entry.
  induction turns generalizing index pending system run with
  | zero =>
      have none : pending = [] := List.eq_nil_of_length_eq_zero (Nat.le_zero.mp enough)
      rw [none, remaining, if_pos rfl] at phase
      rw [publishBatches]
      refine ⟨system, ⟨[], [], [], by simp, by simp, by simp, ?_⟩, phase⟩
      exact outbox ▸ metadata ▸ .refl system
  | succ turns ih =>
      rw [publishBatches]
      by_cases none : pending = []
      · rw [none, remaining, if_pos rfl] at phase
        rw [if_pos none]
        refine ⟨system, ⟨[], [], [], by simp, by simp, by simp, ?_⟩, phase⟩
        exact outbox ▸ metadata ▸ .refl system
      · rw [remaining, if_neg none] at phase
        rw [if_neg none]
        obtain ⟨middle, clocked, batch⟩ := performs_publishBatch reachable isMetricsEnabled
          (env.batches index) phase outbox metadata going
          (fun call => now ▸ timely.calls index call) (now ▸ timely.dated index)
        generalize publishBatch cfg worker isMetricsEnabled (env.batches index)
          (pending.take batchSize) run = after at batch ⊢
        obtain ⟨audited, events, added, sameAudits, performs⟩ := batch.performs
        cases threw : after.threw with
        | true =>
            simp only [threw, ↓reduceIte]
            refine ⟨middle, ⟨[pending.take batchSize], audited, events, batch.requests, added,
              .of_eq sameAudits, by simpa using performs⟩, ?_⟩
            rw [batch.phase, if_pos threw]
        | false =>
            simp only [threw, Bool.false_eq_true, ↓reduceIte]
            have fewer : (pending.drop batchSize).length ≤ turns := by
              have positive : 0 < pending.length := List.length_pos_iff.mpr none
              rw [List.length_drop, batchSize]
              omega
            have nextPhase := batch.phase
            rw [if_neg (by simp [threw])] at nextPhase
            obtain ⟨last, rest, idle⟩ := ih (index + 1) (reachable.reaches performs.reach)
              nextPhase clocked fewer (by rw [performs.store]) (by rw [performs.store]) threw
            obtain ⟨requests, moreAudited, moreEvents, asked, more, perm, continues⟩ := rest
            refine ⟨last, ⟨pending.take batchSize :: requests, moreAudited ++ audited,
              events ++ moreEvents, ?_, ?_, ?_, ?_⟩, idle⟩
            · rw [asked, batch.requests, List.append_assoc]
              rfl
            · rw [more, added, List.append_assoc]
            · rw [List.map_append, List.map_append, sameAudits]
              exact (List.perm_append_comm.trans (perm.append_right _))
            · rw [List.map_cons, List.reverse_cons, List.map_append]
              exact performs.trans continues

/-- The service has gone from the first state to the second as the run says. -/
structure Refined (cfg : Config) (worker : WorkerId) (run : PollRun) (before after : System) :
    Prop where
  alone : ReachesAlone cfg worker before after
  idle : after.run worker = .idle
  others : ∀ other, other ≠ worker → after.run other = before.run other
  store : after.store = { before.store with outbox := run.outbox, metadata := run.metadata }
  requested : requestsOf worker after.history =
    (run.requests.map fun batch => batch.map OutboxEntry.id).reverse ++
      requestsOf worker before.history
  audited : ∃ entries : List OutboxEntry,
    (run.audits.map some).Perm (entries.map terminalFailureAudit) ∧
      auditsOf worker after.history = entries.map OutboxEntry.id ++ auditsOf worker before.history

theorem Refined.reach {run : PollRun} {before after : System}
    (refined : Refined cfg worker run before after) : Reaches (System.step cfg) before after :=
  refined.alone.reach

theorem RunsTo.refined {run after : PollRun} {before last : System}
    (runs : RunsTo cfg worker run after before last) (requests : run.requests = [])
    (audits : run.audits = []) : Refined cfg worker after before last := by
  obtain ⟨asked, audited, events, sameRequests, sameAudits, perm, performs⟩ := runs.performs
  rw [requests, List.nil_append] at sameRequests
  rw [audits, List.nil_append] at sameAudits
  refine ⟨performs.alone, runs.idle, performs.others, performs.store, ?_, audited, ?_,
    performs.audited⟩
  · rw [sameRequests]
    exact performs.requested
  · rw [sameAudits]
    exact perm

/-- The body of the `try` is a run of the service. -/
theorem processPendingMessages_refines (reachable : Reachable cfg system)
    (idle : system.run worker = .idle) {env : PollEnv} {clock : Nat → Time}
    (now : system.clock = env.now) (timely : Timely env clock) :
    ∃ last, Refined cfg worker (processPendingMessages cfg worker env system.store.outbox
      system.store.metadata) system last := by
  obtain ⟨started, starts, startedClock, claiming⟩ := performs_start cfg idle
  rw [now] at startedClock claiming
  have startedOutbox : started.store.outbox = system.store.outbox := by rw [starts.store]
  let first : ClaimRun :=
    { claimed := [], outbox := system.store.outbox, log := [], threw := false }
  have room : first.claimed.length + cfg.outboxQueryLimit = cfg.outboxQueryLimit := Nat.zero_add _
  obtain ⟨claimedAt, claims, claimedClock, claimPhase, ended⟩ :=
    performs_claimRun env cfg.outboxQueryLimit 0 claiming startedOutbox rfl room
      reachable.coherent.entryIds
  have startedMetadata : started.store.metadata = system.store.metadata := by rw [starts.store]
  rw [startedMetadata] at claims
  have leads := starts.trans claims
  rw [processPendingMessages]
  generalize claimRun cfg worker env cfg.outboxQueryLimit 0 first = claim at *
  cases threw : claim.threw with
  | true =>
      have busy : claimedAt.run worker ≠ .idle := by simp [claimPhase]
      have gives := leads.trans_quiet (performs_abandon cfg busy)
      refine ⟨claimedAt.setRun worker .idle, ?_⟩
      simp only [↓reduceIte]
      exact ⟨gives.alone, Function.update_self .., gives.others, gives.store, gives.requested,
        [], .refl _, gives.audited⟩
  | false =>
      have accepted : claimedAt.step cfg (.claimsDone worker) =
          some (claimedAt.setRun worker (remaining claim.claimed)) := by
        simp only [System.step, System.claimsDone, claimPhase, remaining]
        refine if_pos ?_
        rw [leads.store]
        exact ended threw
      have done : Performs cfg worker claimedAt
          (claimedAt.setRun worker (remaining claim.claimed)) [] [] claimedAt.store.outbox
          claimedAt.store.metadata := by
        exact .single accepted (Or.inl rfl) [] rfl rfl rfl rfl
      have due := leads.trans_quiet done
      simp only [Bool.false_eq_true, ↓reduceIte]
      by_cases none : claim.claimed = []
      · simp only [none, ↓reduceIte]
        refine ⟨claimedAt.setRun worker (remaining []), ?_⟩
        rw [none] at due
        exact ⟨due.alone, Function.update_self .., due.others, due.store, due.requested,
          [], .refl _, due.audited⟩
      · simp only [none, ↓reduceIte]
        have clocked : (claimedAt.setRun worker (remaining claim.claimed)).clock = clock 0 :=
          claimedClock.trans (startedClock.trans timely.start.symm)
        have phase : (claimedAt.setRun worker (remaining claim.claimed)).run worker =
            remaining claim.claimed := Function.update_self ..
        let begun : PollRun :=
          { outbox := claim.outbox
            metadata := system.store.metadata
            requests := []
            metrics := []
            log := claim.log ++ claim.claimed.map .claimed ++ [.processing claim.claimed.length]
            audits := []
            threw := false }
        have outbox : claimedAt.store.outbox = begun.outbox := by rw [leads.store]
        have metadata : claimedAt.store.metadata = begun.metadata := by rw [leads.store]
        obtain ⟨last, runs⟩ := performs_publishBatches env.isMetricsEnabled timely
          claim.claimed.length 0 (reachable.reaches due.reach) phase clocked (Nat.le_refl _)
          outbox metadata rfl
        have refined := runs.refined rfl rfl
        refine ⟨last, ⟨due.alone.trans refined.alone, refined.idle, ?_, ?_, ?_, ?_⟩⟩
        · intro other apart
          exact (refined.others other apart).trans (due.others other apart)
        · rw [refined.store, due.store]
        · rw [refined.requested, due.requested]
          rfl
        · obtain ⟨entries, perm, audited⟩ := refined.audited
          exact ⟨entries, perm, audited.trans (congrArg _ due.audited)⟩

/-- What follows the `try` changes nothing the service stores, publishes or audits. -/
theorem Refined.of_starts {env : PollEnv} (starts : env.sessionStarts = true)
    {outbox : List OutboxEntry} {metadata : List MetadataDocument} {last : System}
    (refined : Refined cfg worker (processPendingMessages cfg worker env outbox metadata) system
      last) :
    Refined cfg worker (publishPendingMessages cfg worker env outbox metadata) system last := by
  rw [publishPendingMessages, if_pos starts]
  exact ⟨refined.alone, refined.idle, refined.others, refined.store, refined.requested,
    refined.audited⟩

/-- A poll run that nobody interferes with is a run of the steps of its worker, whatever the
publisher answers and whichever query throws: it changes the store, publishes and audits as
these steps do, and leaves the worker idle. -/
theorem poll_run_refines_service (reachable : Reachable cfg system)
    (idle : system.run worker = .idle) {env : PollEnv} {clock : Nat → Time}
    (now : system.clock = env.now) (timely : Timely env clock) :
    ∃ last, Refined cfg worker (publishPendingMessages cfg worker env system.store.outbox
      system.store.metadata) system last := by
  cases starts : env.sessionStarts with
  | false =>
      rw [publishPendingMessages, starts]
      exact ⟨system, .refl system, idle, fun _ _ => rfl, rfl, rfl, [], .refl _, rfl⟩
  | true =>
      obtain ⟨last, refined⟩ := processPendingMessages_refines reachable idle now timely
      exact ⟨last, refined.of_starts starts⟩

namespace Sample

/-- The publisher accepts every message, at the given time. -/
def acceptedAt (time : Time) : BatchEnv where
  answer batch := .answered { successful := batch.map getEntryId, failed := [] }
  callTime _ := time
  publishedAt := time
  transactionFails := false
  reportFails := false

/-- A poll at the given time in which nothing fails. -/
def pollAt (time : Time) : PollEnv where
  sessionStarts := true
  picks _ := .first _
  now := time
  claimFails := none
  batches _ := acceptedAt time
  backlogFails := false
  emittedAt := time
  isMetricsEnabled := true

/-- A callback with two files is received. -/
def pendingUpload : List Action :=
  [.callback (env 1) (body [("document", file fileA), ("evidence", file fileB)])]

theorem timely_pollAt (time : Time) : Timely (pollAt time) fun _ => time :=
  ⟨rfl, fun _ _ => ⟨Nat.le_refl _, Nat.le_refl _⟩, fun _ => ⟨Nat.le_refl _, Nat.le_refl _⟩⟩

end Sample

/-- A poll sends the two entries of the sample, as a run of the service does. -/
theorem poll_run_refines_service_sample :
    (publishPendingMessages Sample.config "worker" (Sample.pollAt 0)
        (System.after Sample.config Sample.pendingUpload (by decide)).store.outbox
        (System.after Sample.config Sample.pendingUpload (by decide)).store.metadata).outbox.map
          OutboxEntry.status = [.sent, .sent] ∧
      ∃ last, Refined Sample.config "worker"
        (publishPendingMessages Sample.config "worker" (Sample.pollAt 0)
          (System.after Sample.config Sample.pendingUpload (by decide)).store.outbox
          (System.after Sample.config Sample.pendingUpload (by decide)).store.metadata)
        (System.after Sample.config Sample.pendingUpload (by decide)) last :=
  ⟨by decide, poll_run_refines_service
    (Reachable.after Sample.config Sample.pendingUpload (by decide)) rfl rfl
    (Sample.timely_pollAt 0)⟩

end ObjectProcessor
