import ObjectProcessor.Service.Budget

/-!
# Audits of terminal failures

The failures of a batch are audited from a query made after the commit, by the
files of what the batch has failed.  A run that throws before the query leaves its
own terminal failures without an audit; a query that comes late enough finds an
entry another worker has given up meanwhile, and audits it a second time.
-/

namespace ObjectProcessor

open Library

variable {cfg : Config} {system next : System} {action : Action} {worker : WorkerId}
  {id : ObjectId}

/-! ## Audits and reports -/

def Event.isAuditOf (id : ObjectId) : Event → Bool
  | .audited _ entry => entry = id
  | _ => false

/-- How often the failure of the entry was audited. -/
def timesAudited (id : ObjectId) (history : List Event) : Nat :=
  history.countP (Event.isAuditOf id)

/-- The last finalisation of the entry was a failure the worker recorded. -/
def GivenUpBy (worker : WorkerId) (id : ObjectId) (history : List Event) : Prop :=
  Since (Undisturbed id) (· = .finalised worker id .failed) history

/-- The run of the worker is to report a failure of the entry. -/
def System.reports (system : System) (worker : WorkerId) (id : ObjectId) : Prop :=
  ∃ failed rest, system.run worker = .reporting failed rest ∧ id ∈ failed.map OutboxEntry.id

/-- Whenever no run is in progress, each entry that was given up has been audited once
and no other entry ever. -/
def AuditedOnce (system : System) : Prop :=
  (∀ worker, system.run worker = .idle) → ∀ entry ∈ system.store.outbox,
    timesAudited entry.id system.history = if entry.status = .permanentFailure then 1 else 0

/-- A report finds only what its own run gave up, and a run that gave an entry up comes to
report it. -/
def ReportsOwn (system : System) : Action → Prop
  | .report worker => ∀ failed rest, system.run worker = .reporting failed rest →
      ∀ entry ∈ system.store.outbox, entry.status = .permanentFailure →
        EntryId.file entry.fileId ∈ failed.map getEntryId →
        GivenUpBy worker entry.id system.history
  | .abandon worker => ∀ failed rest, system.run worker = .reporting failed rest →
      ∀ entry ∈ system.store.outbox, entry.status = .permanentFailure →
        EntryId.file entry.fileId ∈ failed.map getEntryId →
        ¬ GivenUpBy worker entry.id system.history
  | _ => True

theorem GivenUpBy.unique {other : WorkerId} {history : List Event}
    (one : GivenUpBy worker id history) (second : GivenUpBy other id history) :
    worker = other := by
  have same := Since.unique one second (by simp [Undisturbed]) (by simp [Undisturbed])
  cases same
  rfl

theorem timesAudited_append (events : List Event) {history : List Event}
    (silent : ∀ event ∈ events, event.isAuditOf id = false) :
    timesAudited id (events ++ history) = timesAudited id history := by
  rw [timesAudited, countP_append_of_silent events silent, timesAudited]

/-- Only a report audits. -/
theorem Edge.timesAudited_eq (edge : Edge cfg system action next) (id : ObjectId)
    (other : ∀ worker, action ≠ .report worker) :
    timesAudited id next.history = timesAudited id system.history := by
  cases edge with
  | tick => rfl
  | initiate => rfl
  | claimsDone => rfl
  | abandon => rfl
  | start => exact timesAudited_append [_] (by simp [Event.isAuditOf])
  | claim => exact timesAudited_append [_] (by simp [Event.isAuditOf])
  | publish => exact timesAudited_append [_] (by simp [Event.isAuditOf])
  | expire => exact timesAudited_append [_] (by simp [Event.isAuditOf])
  | report => exact absurd rfl (other _)
  | callback =>
      refine timesAudited_append _ fun event member => ?_
      obtain ⟨created, _, rfl⟩ := List.mem_map.mp member
      rfl
  | finalize =>
      refine timesAudited_append _ fun event member => ?_
      rcases mem_finalizationEvents.mp member with ⟨entry, _, rfl⟩ | ⟨entry, _, rfl⟩
      · rfl
      · rfl

/-- A report audits each terminal failure it finds. -/
theorem Edge.report_audits (edge : Edge cfg system (.report worker) next) (id : ObjectId) :
    ∃ failed rest, system.run worker = .reporting failed rest ∧
      next.store = system.store ∧ ¬ next.reports worker id ∧
      timesAudited id next.history = timesAudited id system.history +
        ((system.terminalFailures cfg failed).map OutboxEntry.id).count id := by
  cases edge with
  | report phase =>
      rename_i failed rest
      refine ⟨failed, rest, phase, rfl, ?_, ?_⟩
      · rintro ⟨others, later, reporting, _⟩
        simp only [System.setRun, System.record, Function.update_self] at reporting
        split at reporting <;> cases reporting
      · have counted : ((system.terminalFailures cfg failed).map fun entry =>
            Event.audited worker entry.id).countP (Event.isAuditOf id) =
            ((system.terminalFailures cfg failed).map OutboxEntry.id).count id := by
          rw [List.countP_map, List.count, List.countP_map]
          rfl
        show timesAudited id (_ ++ system.history) = _
        rw [timesAudited, List.countP_append, counted, Nat.add_comm, timesAudited]

/-- A run comes to report what its transaction has failed. -/
theorem Edge.reporting (edge : Edge cfg system action next) {failed rest : List OutboxEntry}
    (phase : next.run worker = .reporting failed rest) :
    (system.run worker = .reporting failed rest ∧ action ≠ .abandon worker) ∨
      ∃ batch results since times publishedAt,
        system.run worker = .finalizing batch results rest since ∧
          failed = (system.finalization cfg worker batch results times
            publishedAt).finalizedFailed := by
  obtain ⟨events, _, moves⟩ := edge.runStep worker
  rw [phase] at moves
  generalize system.run worker = before at moves ⊢
  generalize reached : RunPhase.reporting failed rest = after at moves ⊢
  cases moves with
  | other apart => exact Or.inl ⟨rfl, fun ends => apart (ends ▸ rfl)⟩
  | finalize commits =>
      cases reached
      exact Or.inr ⟨_, _, _, _, _, rfl, by rw [commits]⟩
  | claimsDone => split at reached <;> cases reached
  | report => split at reached <;> cases reached
  | _ => cases reached

/-- A run comes to report an entry only by finalising a claim of it. -/
theorem Edge.reports (edge : Edge cfg system action next) (coherent : Coherent system)
    (reports : next.reports worker id) :
    (system.reports worker id ∧ action ≠ .abandon worker) ∨
      ∃ entry ∈ system.store.outbox, entry.id = id ∧ entry.status = .processing := by
  obtain ⟨failed, rest, phase, member⟩ := reports
  rcases edge.reporting phase with
    ⟨before, stays⟩ | ⟨batch, results, since, times, publishedAt, _, rfl⟩
  · exact Or.inl ⟨⟨failed, rest, before, member⟩, stays⟩
  · right
    obtain ⟨fate, spec⟩ := finalization_spec coherent.entryIds rfl
    obtain ⟨labelled, named, same⟩ := List.mem_map.mp member
    obtain ⟨⟨entry, stored, sameId⟩, _⟩ := spec.failed labelled named
    refine ⟨entry, stored, sameId.trans same, ?_⟩
    rcases spec.each entry stored with ⟨_, _, notFailed⟩ | ⟨_, change, _⟩
    · exact absurd (List.mem_map_of_mem named) (sameId ▸ notFailed)
    · exact change.processing

/-- A run keeps what it is to report until it reports or ends. -/
theorem Edge.reports_kept (edge : Edge cfg system action next) (reports : system.reports worker id)
    (silent : action ≠ .report worker) (goes : action ≠ .abandon worker) :
    next.reports worker id := by
  obtain ⟨failed, rest, phase, member⟩ := reports
  obtain ⟨events, _, moves⟩ := edge.runStep worker
  refine ⟨failed, rest, ?_, member⟩
  rw [phase] at moves
  generalize begun : RunPhase.reporting failed rest = before, next.run worker = after at moves ⊢
  cases moves with
  | other => rfl
  | report => exact absurd rfl silent
  | abandon => exact absurd rfl goes
  | _ => cases begun

/-! ## What a report finds -/

/-- The snapshot describes an entry that was created, and shares its file with no other. -/
structure Traced (system : System) (snapshot : OutboxEntry) : Prop where
  issued : snapshot.id ∈ system.issued
  agrees : ∀ entry ∈ system.store.outbox, entry.id = snapshot.id →
    entry.payload = snapshot.payload
  created : ∃ created ∈ createdEntries system.history,
    created.id = snapshot.id ∧ created.fileId = snapshot.fileId

/-- Every failure a run is to report is traced. -/
def FailuresTraced (system : System) : Prop :=
  ∀ worker failed rest, system.run worker = .reporting failed rest →
    ∀ snapshot ∈ failed, Traced system snapshot

theorem Traced.step {snapshot : OutboxEntry} (traced : Traced system snapshot)
    (coherent : Coherent system) (edge : Edge cfg system action next) : Traced next snapshot where
  issued := edge.issued traced.issued
  agrees := by
    intro after member same
    rcases edge.origin coherent.entryIds member with
      ⟨entry, stored, change⟩ | ⟨_, _, _, _, _, fresh⟩
    · rw [change.payload_eq]
      exact traced.agrees entry stored (change.id_eq.symm.trans same)
    · exact absurd traced.issued (same ▸ fresh)
  created := by
    obtain ⟨created, member, same⟩ := traced.created
    obtain ⟨events, grows⟩ := edge.grows
    rw [grows, createdEntries_append]
    exact ⟨created, List.mem_append_right _ member, same⟩

/-- What a transaction has failed is traced. -/
theorem traced_of_finalizedFailed (coherent : Coherent system) (agreement : Agreement system)
    (agree : SnapshotsAgree system) {batch rest : List OutboxEntry} {results : PublishResults}
    {since : Time} (phase : system.run worker = .finalizing batch results rest since)
    {times : List Time} {publishedAt : Time} {labelled : OutboxEntry}
    (named : labelled ∈ (system.finalization cfg worker batch results times
      publishedAt).finalizedFailed) : Traced system labelled := by
  obtain ⟨fate, spec⟩ := finalization_spec coherent.entryIds rfl
  obtain ⟨⟨entry, stored, sameId⟩, snapshot, inBatch, rfl⟩ := spec.failed labelled named
  have held := mem_held_of_finalizing phase inBatch
  refine ⟨sameId ▸ coherent.issuedEntries entry stored, fun other found same =>
    agree worker snapshot held other found same, ?_⟩
  obtain ⟨created, member, createdId, createdFile⟩ := agreement.createdAll entry stored
  refine ⟨created, member, createdId.trans sameId, createdFile.trans ?_⟩
  have payload := agree worker snapshot held entry stored sameId
  rw [OutboxEntry.fileId, payload, OutboxEntry.fileId]

theorem Reachable.failuresTraced (reachable : Reachable cfg system) : FailuresTraced system := by
  refine Reaches.induction (motive := FailuresTraced) reachable ?_ ?_
  · simp [FailuresTraced, System.initial]
  · intro before action after reached traced accepted worker failed rest phase snapshot member
    have edge := edge_of_step accepted
    have coherent := Reachable.coherent reached
    have agreement := Reachable.agreement reached
    refine Traced.step ?_ coherent edge
    rcases edge.reporting phase with ⟨stays, _⟩ | ⟨batch, results, since, _, _, finalizing, rfl⟩
    · exact traced worker failed rest stays snapshot member
    · exact traced_of_finalizedFailed coherent agreement.2 agreement.1 finalizing member

/-- The file of a stored entry is named exactly when the entry is. -/
theorem named_iff (agreement : Agreement system) {failed : List OutboxEntry}
    (traced : ∀ snapshot ∈ failed, Traced system snapshot) {entry : OutboxEntry}
    (stored : entry ∈ system.store.outbox) :
    EntryId.file entry.fileId ∈ failed.map getEntryId ↔
      entry.id ∈ failed.map OutboxEntry.id := by
  constructor
  · intro named
    obtain ⟨snapshot, member, same⟩ := List.mem_map.mp named
    obtain ⟨created, isCreated, createdId, createdFile⟩ := (traced snapshot member).created
    obtain ⟨origin, isOrigin, originId, originFile⟩ := agreement.createdAll entry stored
    have equal : created = origin := agreement.createdFiles.eq_of_key isCreated isOrigin
      (createdFile.trans ((fileId_of_getEntryId same).trans originFile.symm))
    subst equal
    exact List.mem_map.mpr ⟨snapshot, member, createdId.symm.trans originId⟩
  · intro named
    obtain ⟨snapshot, member, same⟩ := List.mem_map.mp named
    have payload := (traced snapshot member).agrees entry stored same.symm
    have sameFile : snapshot.fileId = entry.fileId := by
      rw [OutboxEntry.fileId, ← payload, OutboxEntry.fileId]
    have truthy := agreement.truthyFiles entry stored
    refine List.mem_map.mpr ⟨snapshot, member, ?_⟩
    rw [getEntryId_of_truthy (sameFile ▸ truthy), sameFile]

/-! ## The invariant -/

/-- An audit is made only of what was given up; until the run that gave the entry up has
reported there is none, and from then on there is one. -/
structure Audited (system : System) : Prop where
  only : ∀ id, 0 < timesAudited id system.history →
    ∃ entry ∈ system.store.outbox, entry.id = id ∧ entry.status = .permanentFailure
  once : ∀ entry ∈ system.store.outbox, entry.status = .permanentFailure →
    ∃ worker, GivenUpBy worker entry.id system.history ∧
      ((system.reports worker entry.id ∧ timesAudited entry.id system.history = 0) ∨
        (¬ system.reports worker entry.id ∧ timesAudited entry.id system.history = 1))

theorem audited_initial : Audited System.initial where
  only := by simp [System.initial, timesAudited]
  once := by simp [System.initial]

theorem mem_terminalFailures {failed : List OutboxEntry} {entry : OutboxEntry} :
    entry ∈ system.terminalFailures cfg failed ↔ entry ∈ system.store.outbox ∧
      EntryId.file entry.fileId ∈ failed.map getEntryId ∧ entry.status = .permanentFailure ∧
        cfg.outboxMaxAttempts ≤ entry.attempts := by
  simp only [System.terminalFailures, List.mem_filter, Bool.and_eq_true, decide_eq_true_eq,
    and_assoc]

/-- What a report counts for a stored entry. -/
theorem count_terminalFailures (coherent : Coherent system) {failed : List OutboxEntry}
    {entry : OutboxEntry} (stored : entry ∈ system.store.outbox) :
    ((system.terminalFailures cfg failed).map OutboxEntry.id).count entry.id =
      if entry ∈ system.terminalFailures cfg failed then 1 else 0 := by
  have unique : UniqueBy OutboxEntry.id (system.terminalFailures cfg failed) :=
    coherent.entryIds.filter _
  split
  · rename_i member
    exact List.count_eq_one_of_mem unique (List.mem_map_of_mem member)
  · rename_i absent
    refine List.count_eq_zero.mpr fun named => absent ?_
    obtain ⟨other, found, same⟩ := List.mem_map.mp named
    rwa [← coherent.entryIds.eq_of_key (mem_terminalFailures.mp found).1 stored same]

/-- Nothing but its report and its end changes whether a run is to report an entry that
was given up. -/
theorem Edge.reports_iff (edge : Edge cfg system action next) (coherent : Coherent system)
    {entry : OutboxEntry} (stored : entry ∈ system.store.outbox)
    (givenUp : entry.status = .permanentFailure) (silent : action ≠ .report worker)
    (goes : action ≠ .abandon worker) :
    next.reports worker entry.id ↔ system.reports worker entry.id := by
  constructor
  · intro after
    rcases edge.reports coherent after with ⟨before, _⟩ | ⟨other, found, same, processing⟩
    · exact before
    · rw [coherent.entryIds.eq_of_key found stored same, givenUp] at processing
      cases processing
  · intro before
    exact edge.reports_kept before silent goes

/-- A given-up entry that is left alone stays due for one audit, or audited once. -/
theorem Audited.once_step {entry : OutboxEntry} (reachable : Reachable cfg system)
    (edge : Edge cfg system action next) (own : ReportsOwn system action)
    (stored : entry ∈ system.store.outbox) (givenUp : entry.status = .permanentFailure)
    (isGivenUp : GivenUpBy worker entry.id system.history)
    (due : (system.reports worker entry.id ∧ timesAudited entry.id system.history = 0) ∨
      (¬ system.reports worker entry.id ∧ timesAudited entry.id system.history = 1)) :
    (next.reports worker entry.id ∧ timesAudited entry.id next.history = 0) ∨
      (¬ next.reports worker entry.id ∧ timesAudited entry.id next.history = 1) := by
  have coherent := reachable.coherent
  have named {actor : WorkerId} {failed rest : List OutboxEntry}
      (phase : system.run actor = .reporting failed rest) :
      EntryId.file entry.fileId ∈ failed.map getEntryId ↔ system.reports actor entry.id := by
    rw [named_iff reachable.agreement.2 (reachable.failuresTraced actor failed rest phase) stored]
    constructor
    · intro member
      exact ⟨failed, rest, phase, member⟩
    · rintro ⟨others, later, same, member⟩
      cases phase.symm.trans same
      exact member
  by_cases isReport : ∃ actor, action = .report actor
  · obtain ⟨actor, rfl⟩ := isReport
    obtain ⟨failed, rest, phase, _, done, counted⟩ := edge.report_audits entry.id
    rw [count_terminalFailures coherent stored] at counted
    by_cases member : EntryId.file entry.fileId ∈ failed.map getEntryId
    · -- The run that reports the entry is the one that gave it up.
      have same := isGivenUp.unique (own failed rest phase entry stored givenUp member)
      subst same
      have spent := reachable.charges.spent entry stored givenUp
      rw [if_pos (mem_terminalFailures.mpr ⟨stored, member, givenUp, spent⟩)] at counted
      rcases due with ⟨_, none⟩ | ⟨silent, _⟩
      · exact Or.inr ⟨done, by rw [counted, none]⟩
      · exact absurd ((named phase).mp member) silent
    · rw [if_neg fun found => member (mem_terminalFailures.mp found).2.1, Nat.add_zero] at counted
      rw [counted]
      by_cases same : worker = actor
      · subst same
        rcases due with ⟨reports, _⟩ | ⟨_, one⟩
        · exact absurd ((named phase).mpr reports) member
        · exact Or.inr ⟨done, one⟩
      · rwa [edge.reports_iff coherent stored givenUp (by simpa using Ne.symm same) (by simp)]
  · rw [edge.timesAudited_eq entry.id fun actor same => isReport ⟨actor, same⟩]
    have silent : action ≠ .report worker := fun same => isReport ⟨worker, same⟩
    by_cases ends : action = .abandon worker
    · subst ends
      have quiet : ¬ system.reports worker entry.id := by
        rintro ⟨failed, rest, phase, member⟩
        exact own failed rest phase entry stored givenUp
          ((named phase).mpr ⟨failed, rest, phase, member⟩) isGivenUp
      rcases due with ⟨reports, _⟩ | ⟨_, one⟩
      · exact absurd reports quiet
      · refine Or.inr ⟨fun after => ?_, one⟩
        rcases edge.reports coherent after with ⟨before, _⟩ | ⟨other, found, same, processing⟩
        · exact quiet before
        · rw [coherent.entryIds.eq_of_key found stored same, givenUp] at processing
          cases processing
    · rwa [edge.reports_iff coherent stored givenUp silent ends]

theorem audited_step (reachable : Reachable cfg system) (audited : Audited system)
    (edge : Edge cfg system action next) (own : ReportsOwn system action) : Audited next := by
  have coherent := reachable.coherent
  constructor
  · intro id positive
    by_cases isReport : ∃ actor, action = .report actor
    · obtain ⟨actor, rfl⟩ := isReport
      obtain ⟨failed, rest, phase, store, _, counted⟩ := edge.report_audits id
      rw [store]
      rcases Nat.eq_zero_or_pos (timesAudited id system.history) with none | some
      · rw [counted, none, Nat.zero_add, List.count_pos_iff] at positive
        obtain ⟨entry, found, same⟩ := List.mem_map.mp positive
        obtain ⟨stored, _, givenUp, _⟩ := mem_terminalFailures.mp found
        exact ⟨entry, stored, same, givenUp⟩
      · exact audited.only id some
    · rw [edge.timesAudited_eq id fun actor same => isReport ⟨actor, same⟩] at positive
      obtain ⟨entry, stored, same, givenUp⟩ := audited.only id positive
      exact ⟨entry, edge.permanentFailure coherent stored givenUp, same, givenUp⟩
  · intro after member givenUp
    rcases edge.settlement coherent member (by simp [OutboxEntry.isOpen, givenUp]) with
      ⟨stored, events, grows, quiet⟩ |
        ⟨worker, times, publishedAt, outcome, entry, stored, rfl, settlement⟩
    · obtain ⟨worker, isGivenUp, due⟩ := audited.once after stored givenUp
      exact ⟨worker, grows ▸ isGivenUp.append quiet,
        Audited.once_step reachable edge own stored givenUp isGivenUp due⟩
    · obtain ⟨failed, _⟩ := settlement.change.givenUp givenUp
      subst failed
      rw [settlement.change.id_eq]
      obtain ⟨later, front, grows, quiet⟩ := settlement.recorded
      rw [List.forall_mem_append] at quiet
      refine ⟨worker, ⟨later, _, front ++ system.history, grows, rfl,
        fun event late => (quiet.1 event late).1⟩, Or.inl ⟨settlement.reported rfl, ?_⟩⟩
      rw [edge.timesAudited_eq entry.id (by simp)]
      -- An entry that was audited before had been given up, and was not under a claim.
      by_contra positive
      obtain ⟨other, found, same, status⟩ := audited.only entry.id (Nat.pos_of_ne_zero positive)
      rw [coherent.entryIds.eq_of_key found stored same,
        settlement.change.processing] at status
      cases status

/-- Where no run is in progress, nothing is left to report. -/
theorem Audited.auditedOnce (audited : Audited system) (coherent : Coherent system) :
    AuditedOnce system := by
  intro idle entry stored
  by_cases givenUp : entry.status = .permanentFailure
  · rw [if_pos givenUp]
    obtain ⟨worker, _, ⟨⟨failed, rest, phase, _⟩, _⟩ | ⟨_, one⟩⟩ :=
      audited.once entry stored givenUp
    · rw [idle worker] at phase
      cases phase
    · exact one
  · rw [if_neg givenUp]
    by_contra positive
    obtain ⟨other, found, same, status⟩ := audited.only entry.id (Nat.pos_of_ne_zero positive)
    rw [coherent.entryIds.eq_of_key found stored same] at status
    exact givenUp status

/-- Throughout a run in which each report finds what its own run gave up, and no run ends
before it has reported that, every terminal failure is audited once. -/
theorem audited_once_when_runs_report_their_own {actions : List Action}
    (own : EveryStep (System.step cfg) ReportsOwn System.initial actions) :
    Throughout (System.step cfg) AuditedOnce System.initial actions := by
  have audited : Throughout (System.step cfg) Audited System.initial actions := by
    refine throughout_of_everyStep audited_initial ?_ own
    intro state action next reached audited own accepted
    exact audited_step reached audited (edge_of_step accepted) own
  exact audited.imp fun state reached holds => holds.auditedOnce (Reachable.coherent reached)

/-- In the sample run the one worker reports what it has just given up. -/
theorem Sample.failure_reports_own :
    EveryStep (System.step Sample.oneAttempt) ReportsOwn System.initial
      (Sample.failure ++ [.report "worker"]) := by
  let justGivenUp (system : System) (action : Action) : Bool :=
    match action with
    | .report worker => system.store.outbox.all fun entry =>
        system.history.head? = some (.finalised worker entry.id .failed)
    | .abandon _ => false
    | _ => true
  have atOnce : EveryStep (System.step Sample.oneAttempt)
      (fun system action => justGivenUp system action = true) System.initial
      (Sample.failure ++ [.report "worker"]) := by
    decide
  refine atOnce.imp fun state action _ _ admitted => ?_
  cases action with
  | abandon worker => cases admitted
  | report worker =>
      intro failed rest _ entry stored _ _
      have latest := of_decide_eq_true (List.all_eq_true.mp admitted entry stored)
      obtain ⟨earlier, same⟩ := List.head?_eq_some_iff.mp latest
      rw [GivenUpBy, same]
      exact Since.head rfl
  | _ => exact trivial

/-- In the sample run the entry that was given up is audited once. -/
theorem audited_once_when_runs_report_their_own_sample :
    AuditedOnce (System.after Sample.oneAttempt (Sample.failure ++ [.report "worker"])
      (by decide)) :=
  audited_once_when_runs_report_their_own Sample.failure_reports_own _ [] _
    (List.append_nil _).symm (Option.some_get _).symm

/-! ## Two ways to miscount -/

/-- The query after the commit throws, and the run ends. -/
def Sample.unreported : List Action := Sample.failure ++ [.abandon "worker"]

/-- The first worker's report comes after the second has given the entry up. -/
def Sample.reportedTwice : List Action :=
  [ .callback (Sample.env 1) (Sample.body [("document", Sample.file Sample.fileA)]),
    .start "first", .claim "first" (Sample.objectId 101), .claimsDone "first",
    .publish "first" (.threw none none), .finalize "first" [0] 0,
    .start "second", .claim "second" (Sample.objectId 101), .claimsDone "second",
    .publish "second" (.threw none none), .finalize "second" [0] 0,
    .report "second", .report "first" ]

def Sample.twoAttempts : Config := { Sample.config with outboxMaxAttempts := 2 }

/-- A terminal failure is not audited at all, or twice. -/
theorem Sample.terminal_failures_miscounted :
    Reachable Sample.oneAttempt
        (System.after Sample.oneAttempt Sample.unreported (by decide)) ∧
      ¬ AuditedOnce (System.after Sample.oneAttempt Sample.unreported (by decide)) ∧
      Reachable Sample.twoAttempts
        (System.after Sample.twoAttempts Sample.reportedTwice (by decide)) ∧
      ¬ AuditedOnce (System.after Sample.twoAttempts Sample.reportedTwice (by decide)) := by
  refine ⟨Reachable.after _ _ _, fun once => ?_, Reachable.after _ _ _, fun once => ?_⟩
  · have never : ∃ entry ∈ (System.after Sample.oneAttempt Sample.unreported
        (by decide)).store.outbox, entry.status = .permanentFailure ∧ timesAudited entry.id
          (System.after Sample.oneAttempt Sample.unreported (by decide)).history = 0 := by
      decide
    obtain ⟨entry, stored, givenUp, none⟩ := never
    have counted := once (idle_of_workers (Option.some_get _).symm ["worker"] (by decide) (by
      intro worker member
      rw [List.mem_singleton.mp member]
      rfl)) entry stored
    rw [none, if_pos givenUp] at counted
    cases counted
  · have twice : ∃ entry ∈ (System.after Sample.twoAttempts Sample.reportedTwice
        (by decide)).store.outbox, timesAudited entry.id
          (System.after Sample.twoAttempts Sample.reportedTwice (by decide)).history = 2 := by
      decide
    obtain ⟨entry, stored, two⟩ := twice
    have counted := once (idle_of_workers (Option.some_get _).symm ["first", "second"]
      (by decide) (by
        intro worker member
        rcases List.mem_cons.mp member with rfl | member
        · rfl
        · rw [List.mem_singleton.mp member]
          rfl)) entry stored
    rw [two] at counted
    split at counted <;> cases counted

end ObjectProcessor
