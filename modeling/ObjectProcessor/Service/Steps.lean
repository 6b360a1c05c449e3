import ObjectProcessor.Callback.Effect
import ObjectProcessor.Service.System

/-!
# What a step can do

`Edge` lists, action by action, what an accepted step has required and where it
leads; every invariant is proved by cases on it.  `RunStep` is the same for the
run of a single worker, which no action but its own moves.
-/

namespace ObjectProcessor

open Library

/-- The transaction a worker commits in its finalising phase. -/
def System.finalization (cfg : Config) (system : System) (worker : WorkerId)
    (batch : List OutboxEntry) (results : PublishResults) (times : List Time)
    (publishedAt : Time) : BatchFinalization :=
  finalizeBatch cfg worker batch results times publishedAt system.store.outbox
    system.store.metadata

theorem finalization_spec {cfg : Config} {system : System} {worker : WorkerId}
    {batch : List OutboxEntry} {results : PublishResults} {times : List Time}
    {publishedAt : Time} {result : BatchFinalization}
    (unique : UniqueBy OutboxEntry.id system.store.outbox)
    (commits : result = system.finalization cfg worker batch results times publishedAt) :
    ∃ fate, BatchSpec cfg worker batch system.store.outbox result fate := by
  rw [commits]
  exact finalizeBatch_spec cfg worker batch results times publishedAt system.store.metadata unique

inductive Edge (cfg : Config) (system : System) : Action → System → Prop where
  | tick {now : Time} (later : system.clock ≤ now) :
      Edge cfg system (.tick now) { system with clock := now }
  | initiate {session : Session} (named : session.uploadId.truthy = true)
      (minted : (isValidJourneyId cfg (session.journeyId.map Json.str)).isSome = true)
      (valid : baseMetadataSchema cfg session.metadata = true)
      (new : ∀ stored ∈ system.store.sessions,
        stored.uploadId ≠ session.uploadId ∧ stored.journeyId ≠ session.journeyId) :
      Edge cfg system (.initiate session) { system with
        store := { system.store with sessions := system.store.sessions ++ [session] } }
  | callback {env : CallbackEnv} {body : Json} {after : Store}
      (past : env.now ≤ system.clock) (distinct : (System.generatedIds env body).Nodup)
      (fresh : ∀ id ∈ System.generatedIds env body, id ∉ system.issued)
      (result : (uploadCallback cfg env system.store body).store = after)
      (effect : CallbackEffect cfg env system.store body after) :
      Edge cfg system (.callback env body) { system with
        store := after
        issued := System.generatedIds env body ++ system.issued
        history := (after.outbox.drop system.store.outbox.length).map Event.created ++
          system.history }
  | start {worker : WorkerId} (idle : system.run worker = .idle) :
      Edge cfg system (.start worker)
        ((system.setRun worker (.claiming system.clock [])).record [.runStarted worker])
  | claim {worker : WorkerId} {now : Time} {claimed : List OutboxEntry} {entry : OutboxEntry}
      (phase : system.run worker = .claiming now claimed)
      (room : claimed.length < cfg.outboxQueryLimit)
      (member : entry ∈ system.store.outbox)
      (oldest : isOldestProcessable cfg now system.store.outbox entry = true) :
      Edge cfg system (.claim worker entry.id)
        (((system.setOutbox (updateMany (fun other => decide (other.id = entry.id))
            (claimUpdate cfg worker now) system.store.outbox)).setRun worker
          (.claiming now (claimed ++ [claimUpdate cfg worker now entry]))).record
            [.claimed worker entry.id (entry.attempts + 1)])
  | claimsDone {worker : WorkerId} {now : Time} {claimed : List OutboxEntry}
      (phase : system.run worker = .claiming now claimed) :
      Edge cfg system (.claimsDone worker)
        (system.setRun worker (if claimed = [] then .idle else .publishing claimed))
  | publish {worker : WorkerId} {answer : PublishAnswer} {pending : List OutboxEntry}
      {results : PublishResults} (phase : system.run worker = .publishing pending)
      (answered : results = publishDocumentUploadMessageBatch (pending.take batchSize) answer) :
      Edge cfg system (.publish worker answer)
        ((system.setRun worker
          (.finalizing (pending.take batchSize) results (pending.drop batchSize)
            system.clock)).record
              [.published worker ((pending.take batchSize).map OutboxEntry.id) results])
  | finalize {worker : WorkerId} {times : List Time} {publishedAt : Time}
      {batch : List OutboxEntry} {results : PublishResults} {rest : List OutboxEntry}
      {since : Time} {result : BatchFinalization}
      (phase : system.run worker = .finalizing batch results rest since)
      (past : ∀ time ∈ publishedAt :: times, since ≤ time ∧ time ≤ system.clock)
      (commits : result = system.finalization cfg worker batch results times publishedAt) :
      Edge cfg system (.finalize worker times publishedAt)
        (({ system with
          store := { system.store with
            outbox := result.outbox
            metadata := result.metadata } }.setRun
            worker (.reporting result.finalizedFailed rest)).record
              (finalizationEvents worker result))
  | report {worker : WorkerId} {failed rest : List OutboxEntry}
      (phase : system.run worker = .reporting failed rest) :
      Edge cfg system (.report worker)
        ((system.setRun worker (if rest = [] then .idle else .publishing rest)).record
          ((system.terminalFailures cfg failed).map fun entry => .audited worker entry.id))
  | abandon {worker : WorkerId} (busy : system.run worker ≠ .idle) :
      Edge cfg system (.abandon worker) (system.setRun worker .idle)
  | expire {entry : OutboxEntry} (member : entry ∈ system.store.outbox)
      (sent : entry.status = .sent) :
      Edge cfg system (.expire entry.id)
        ((system.setOutbox
          (system.store.outbox.filter fun other => decide (other.id ≠ entry.id))).record
            [.expired entry])

/-- Every accepted step is one of the edges. -/
theorem edge_of_step {cfg : Config} {system next : System} {action : Action}
    (accepted : system.step cfg action = some next) : Edge cfg system action next := by
  cases action with
  | tick now =>
      simp only [System.step, Option.ite_none_right_eq_some, Option.some.injEq] at accepted
      obtain ⟨later, rfl⟩ := accepted
      exact .tick later
  | initiate session =>
      simp only [System.step, System.initiate, Option.ite_none_right_eq_some,
        Option.some.injEq] at accepted
      obtain ⟨⟨named, minted, valid, new⟩, rfl⟩ := accepted
      exact .initiate named minted valid new
  | callback env body =>
      simp only [System.step, System.callback, Option.ite_none_right_eq_some,
        Option.some.injEq] at accepted
      obtain ⟨⟨past, distinct, fresh⟩, rfl⟩ := accepted
      exact .callback past distinct fresh rfl (uploadCallback_effect ..)
  | start worker =>
      simp only [System.step, System.start] at accepted
      split at accepted
      · rename_i idle
        cases accepted
        exact .start idle
      · cases accepted
  | claim worker id =>
      simp only [System.step, System.claim] at accepted
      split at accepted
      · rename_i now claimed entry phase found
        simp only [Option.ite_none_right_eq_some, Option.some.injEq] at accepted
        obtain ⟨⟨room, oldest⟩, rfl⟩ := accepted
        have same : entry.id = id := by simpa using List.find?_some found
        subst same
        exact .claim phase room (List.mem_of_find?_eq_some found) oldest
      · cases accepted
  | claimsDone worker =>
      simp only [System.step, System.claimsDone] at accepted
      split at accepted
      · rename_i now claimed phase
        simp only [Option.ite_none_right_eq_some, Option.some.injEq] at accepted
        obtain ⟨_, rfl⟩ := accepted
        exact .claimsDone phase
      · cases accepted
  | publish worker answer =>
      simp only [System.step, System.publish] at accepted
      split at accepted
      · rename_i pending phase
        cases accepted
        exact .publish phase rfl
      · cases accepted
  | finalize worker times publishedAt =>
      simp only [System.step, System.finalize] at accepted
      split at accepted
      · rename_i batch results rest since phase
        simp only [Option.ite_none_right_eq_some, Option.some.injEq] at accepted
        obtain ⟨⟨_, past⟩, rfl⟩ := accepted
        exact .finalize phase past rfl
      · cases accepted
  | report worker =>
      simp only [System.step, System.report] at accepted
      split at accepted
      · rename_i failed rest phase
        cases accepted
        exact .report phase
      · cases accepted
  | abandon worker =>
      simp only [System.step, System.abandon] at accepted
      split at accepted
      · cases accepted
      · rename_i busy
        cases accepted
        exact .abandon busy
  | expire id =>
      simp only [System.step, System.expire] at accepted
      split at accepted
      · rename_i entry found
        simp only [Option.ite_none_right_eq_some, Option.some.injEq] at accepted
        obtain ⟨⟨sent, _⟩, rfl⟩ := accepted
        have same : entry.id = id := by simpa using List.find?_some found
        subst same
        exact .expire (List.mem_of_find?_eq_some found) sent
      · cases accepted

/-- The worker whose run the action is part of. -/
def Action.worker? : Action → Option WorkerId
  | .start worker => some worker
  | .claim worker _ => some worker
  | .claimsDone worker => some worker
  | .publish worker _ => some worker
  | .finalize worker _ _ => some worker
  | .report worker => some worker
  | .abandon worker => some worker
  | _ => none

/-- The worker that caused the event. -/
def Event.worker? : Event → Option WorkerId
  | .runStarted worker => some worker
  | .claimed worker _ _ => some worker
  | .published worker _ _ => some worker
  | .finalised worker _ _ => some worker
  | .audited worker _ => some worker
  | .created _ => none
  | .expired _ => none

/-- The event of a finalised entry is among the recorded ones, and no other entry's. -/
theorem mem_finalizationEvents {worker : WorkerId} {result : BatchFinalization} {event : Event} :
    event ∈ finalizationEvents worker result ↔
      (∃ entry ∈ result.finalizedSuccessful, event = .finalised worker entry.id .succeeded) ∨
        ∃ entry ∈ result.finalizedFailed, event = .finalised worker entry.id .failed := by
  simp only [finalizationEvents, List.mem_reverse, List.mem_append, List.mem_map]
  constructor
  · rintro (⟨entry, member, rfl⟩ | ⟨entry, member, rfl⟩)
    · exact Or.inl ⟨entry, member, rfl⟩
    · exact Or.inr ⟨entry, member, rfl⟩
  · rintro (⟨entry, member, rfl⟩ | ⟨entry, member, rfl⟩)
    · exact Or.inl ⟨entry, member, rfl⟩
    · exact Or.inr ⟨entry, member, rfl⟩

/-! ## The run of one worker -/

/-- How an action moves the run of a worker, and the events it records. -/
inductive RunStep (cfg : Config) (system : System) (worker : WorkerId) :
    Action → RunPhase → RunPhase → List Event → Prop where
  | other {action : Action} {phase : RunPhase} {events : List Event}
      (apart : action.worker? ≠ some worker)
      (silent : ∀ event ∈ events, event.worker? ≠ some worker) :
      RunStep cfg system worker action phase phase events
  | start : RunStep cfg system worker (.start worker) .idle (.claiming system.clock [])
      [.runStarted worker]
  | claim {now : Time} {claimed : List OutboxEntry} {entry : OutboxEntry}
      (member : entry ∈ system.store.outbox)
      (processable : isProcessable cfg now entry = true) :
      RunStep cfg system worker (.claim worker entry.id) (.claiming now claimed)
        (.claiming now (claimed ++ [claimUpdate cfg worker now entry]))
        [.claimed worker entry.id (entry.attempts + 1)]
  | claimsDone {now : Time} {claimed : List OutboxEntry} :
      RunStep cfg system worker (.claimsDone worker) (.claiming now claimed)
        (if claimed = [] then .idle else .publishing claimed) []
  | publish {answer : PublishAnswer} {pending : List OutboxEntry} {results : PublishResults} :
      RunStep cfg system worker (.publish worker answer) (.publishing pending)
        (.finalizing (pending.take batchSize) results (pending.drop batchSize) system.clock)
        [.published worker ((pending.take batchSize).map OutboxEntry.id) results]
  | finalize {times : List Time} {publishedAt : Time} {batch : List OutboxEntry}
      {results : PublishResults} {rest : List OutboxEntry} {since : Time}
      {result : BatchFinalization}
      (commits : result = system.finalization cfg worker batch results times publishedAt) :
      RunStep cfg system worker (.finalize worker times publishedAt)
        (.finalizing batch results rest since) (.reporting result.finalizedFailed rest)
        (finalizationEvents worker result)
  | report {failed rest : List OutboxEntry} :
      RunStep cfg system worker (.report worker) (.reporting failed rest)
        (if rest = [] then .idle else .publishing rest)
        ((system.terminalFailures cfg failed).map fun entry => .audited worker entry.id)
  | abandon {phase : RunPhase} : RunStep cfg system worker (.abandon worker) phase .idle []

/-- An action of another worker leaves the run alone and records nothing in its name. -/
theorem RunStep.of_actor {cfg : Config} {system : System} {action : Action} {events : List Event}
    {actor : WorkerId} {phase : RunPhase} (acts : action.worker? = some actor)
    (own : ∀ event ∈ events, event.worker? = some actor)
    (moves : RunStep cfg system actor action (system.run actor) phase events)
    (worker : WorkerId) :
    RunStep cfg system worker action (system.run worker)
      (Function.update system.run actor phase worker) events := by
  by_cases same : worker = actor
  · subst same
    rwa [Function.update_self]
  · have differ : some actor ≠ some worker := fun equal => same (Option.some.inj equal).symm
    rw [Function.update_of_ne same]
    exact .other (acts ▸ differ) fun event member => own event member ▸ differ

/-- A step adds its events to the history and moves the run of the worker that acts. -/
theorem Edge.runStep {cfg : Config} {system next : System} {action : Action}
    (edge : Edge cfg system action next) (worker : WorkerId) :
    ∃ events, next.history = events ++ system.history ∧
      RunStep cfg system worker action (system.run worker) (next.run worker) events := by
  cases edge with
  | tick => exact ⟨[], rfl, .other (Option.some_ne_none worker).symm (by simp)⟩
  | initiate => exact ⟨[], rfl, .other (Option.some_ne_none worker).symm (by simp)⟩
  | callback =>
      refine ⟨_, rfl, .other (Option.some_ne_none worker).symm fun event member => ?_⟩
      obtain ⟨created, _, rfl⟩ := List.mem_map.mp member
      exact (Option.some_ne_none worker).symm
  | expire =>
      refine ⟨_, rfl, .other (Option.some_ne_none worker).symm fun event member => ?_⟩
      rw [List.mem_singleton.mp member]
      exact (Option.some_ne_none worker).symm
  | start idle => exact ⟨_, rfl, .of_actor rfl (by simp [Event.worker?]) (idle ▸ .start) worker⟩
  | claim phase room member oldest =>
      rw [isOldestProcessable, Bool.and_eq_true] at oldest
      refine ⟨_, rfl, .of_actor rfl ?_ (phase ▸ .claim member oldest.1) worker⟩
      simp [Event.worker?]
  | claimsDone phase => exact ⟨[], rfl, .of_actor rfl (by simp) (phase ▸ .claimsDone) worker⟩
  | publish phase =>
      exact ⟨_, rfl, .of_actor rfl (by simp [Event.worker?]) (phase ▸ .publish) worker⟩
  | finalize phase past commits =>
      refine ⟨_, rfl, .of_actor rfl (fun event member => ?_) (phase ▸ .finalize commits) worker⟩
      rcases mem_finalizationEvents.mp member with ⟨entry, _, rfl⟩ | ⟨entry, _, rfl⟩
      · rfl
      · rfl
  | report phase =>
      refine ⟨_, rfl, .of_actor rfl (fun event member => ?_) (phase ▸ .report) worker⟩
      obtain ⟨entry, _, rfl⟩ := List.mem_map.mp member
      rfl
  | abandon => exact ⟨[], rfl, .of_actor rfl (by simp) .abandon worker⟩

/-- The history only grows. -/
theorem Edge.grows {cfg : Config} {system next : System} {action : Action}
    (edge : Edge cfg system action next) : ∃ events, next.history = events ++ system.history := by
  cases edge with
  | tick => exact ⟨[], rfl⟩
  | initiate => exact ⟨[], rfl⟩
  | claimsDone => exact ⟨[], rfl⟩
  | abandon => exact ⟨[], rfl⟩
  | _ => exact ⟨_, rfl⟩

/-- Only its own actions change the run of a worker. -/
theorem Edge.run_of_other {cfg : Config} {system next : System} {action : Action}
    (edge : Edge cfg system action next) {worker : WorkerId}
    (other : action.worker? ≠ some worker) : next.run worker = system.run worker := by
  obtain ⟨events, _, moves⟩ := edge.runStep worker
  generalize system.run worker = before, next.run worker = after at moves
  cases moves with
  | other => rfl
  | _ => exact absurd rfl other

/-- A worker that takes no part in a run is idle after it. -/
theorem run_of_absent {cfg : Config} {actions : List Action} {system : System}
    (run : runActions (System.step cfg) System.initial actions = some system) {worker : WorkerId}
    (absent : ∀ action ∈ actions, action.worker? ≠ some worker) : system.run worker = .idle := by
  induction actions using List.reverseRecOn generalizing system with
  | nil =>
      cases run
      rfl
  | append_singleton front action ih =>
      obtain ⟨middle, before, accepted⟩ := runActions_snoc_inv run
      rw [List.forall_mem_append] at absent
      rw [(edge_of_step accepted).run_of_other (absent.2 action (List.mem_singleton_self _))]
      exact ih before absent.1

/-- No run is in progress when those that took part have ended. -/
theorem idle_of_workers {cfg : Config} {actions : List Action} {system : System}
    (run : runActions (System.step cfg) System.initial actions = some system)
    (workers : List WorkerId)
    (only : ∀ action ∈ actions, ∀ worker ∈ action.worker?, worker ∈ workers)
    (ended : ∀ worker ∈ workers, system.run worker = .idle) (worker : WorkerId) :
    system.run worker = .idle := by
  by_cases member : worker ∈ workers
  · exact ended worker member
  · refine run_of_absent run fun action listed same => member ?_
    exact only action listed worker same

end ObjectProcessor
