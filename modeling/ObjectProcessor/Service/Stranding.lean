import ObjectProcessor.Service.Delivery
import ObjectProcessor.Service.Records

/-!
# Stranded entries

The claim filter bounds the attempts that were charged before, and a claim charges
its attempt at once.  A claim of the last attempt therefore takes the entry out of
the filter for good: if its run never finalises it, nothing ever will.
-/

namespace ObjectProcessor

open Library

variable {cfg : Config} {system : System} {entry : OutboxEntry}

/-- The claim filter matches the entry now, or does at any time after its lease. -/
def Claimable (cfg : Config) (system : System) (entry : OutboxEntry) : Prop :=
  isProcessable cfg system.clock entry = true ∨
    ∀ now, (∀ limit, entry.claimedUntil = some limit → limit < now) →
      isProcessable cfg now entry = true

/-- Some continuation sends the entry or gives it up. -/
def CanSettle (cfg : Config) (system : System) (entry : OutboxEntry) : Prop :=
  ∃ later after, Reaches (System.step cfg) system later ∧ after ∈ later.store.outbox ∧
    after.id = entry.id ∧ (after.status = .sent ∨ after.status = .permanentFailure)

/-- Every open entry can be claimed and, where runs may claim at all, settled. -/
def NoneStranded (cfg : Config) (system : System) : Prop :=
  ∀ entry ∈ system.store.outbox, entry.isOpen = true →
    Claimable cfg system entry ∧ (0 < cfg.outboxQueryLimit → CanSettle cfg system entry)

/-- The action is not a claim that charges the last attempt of its entry. -/
def SparesLastAttempt (cfg : Config) (system : System) (action : Action) : Prop :=
  ∀ worker id, action = .claim worker id →
    ∀ entry ∈ system.store.outbox, entry.id = id → entry.attempts + 1 < cfg.outboxMaxAttempts

/-- The claim filter bounds the attempts at every time. -/
theorem Claimable.attempts_lt (claimable : Claimable cfg system entry) :
    entry.attempts < cfg.outboxMaxAttempts := by
  rcases claimable with processable | later
  · exact (isProcessable_iff.mp processable).1
  · refine (isProcessable_iff.mp (later (entry.claimedUntil.getD 0 + 1) ?_)).1
    intro limit leased
    simp [leased]

/-- An entry with an attempt left matches once its lease has passed. -/
theorem processable_after_lease (record : RecordInvariant cfg entry) (isOpen : entry.isOpen = true)
    (allowed : entry.attempts < cfg.outboxMaxAttempts) (now : Time)
    (expired : ∀ limit, entry.claimedUntil = some limit → limit < now) :
    isProcessable cfg now entry = true := by
  refine isProcessable_iff.mpr ⟨allowed, ?_⟩
  rw [OutboxEntry.isOpen, Bool.or_eq_true, decide_eq_true_eq, decide_eq_true_eq] at isOpen
  rcases isOpen with pending | processing
  · exact Or.inl pending
  · obtain ⟨_, _, since, worker, _, leased, _⟩ := record.processing processing
    exact Or.inr ⟨processing, _, leased, expired _ leased⟩

/-- No entry is stranded as long as every open one has an attempt left. -/
theorem noneStranded_iff (attempts : 1 ≤ cfg.outboxMaxAttempts)
    (lease : 0 < cfg.outboxClaimLeaseMs) (reachable : Reachable cfg system) :
    NoneStranded cfg system ↔
      ∀ entry ∈ system.store.outbox, entry.isOpen = true →
        entry.attempts < cfg.outboxMaxAttempts := by
  constructor
  · intro none entry stored isOpen
    exact (none entry stored isOpen).1.attempts_lt
  · intro allowed entry stored isOpen
    have record := reachable.records attempts entry stored
    have expires := processable_after_lease record isOpen (allowed entry stored isOpen)
    refine ⟨Or.inr expires, fun limit => ?_⟩
    have processable := expires (max system.clock (entry.claimedUntil.getD 0 + 1)) (by
      intro limit leased
      simp [leased])
    obtain ⟨later, after, reach, stays, same, sent⟩ :=
      reachable.deliverable limit lease stored (Nat.le_max_left ..) processable
    exact ⟨later, after, reach, stays, same, Or.inl sent⟩

/-- A step leaves no entry stranded exactly when it spares the last attempt. -/
theorem noneStranded_step {next : System} {action : Action}
    (attempts : 1 ≤ cfg.outboxMaxAttempts) (lease : 0 < cfg.outboxClaimLeaseMs)
    (reachable : Reachable cfg system) (none : NoneStranded cfg system)
    (accepted : system.step cfg action = some next) :
    NoneStranded cfg next ↔ SparesLastAttempt cfg system action := by
  have edge := edge_of_step accepted
  have coherent := reachable.coherent
  rw [noneStranded_iff attempts lease (reachable.step accepted)]
  rw [noneStranded_iff attempts lease reachable] at none
  constructor
  · rintro allowed worker id rfl entry stored named
    cases edge with
    | claim phase room member oldest =>
        have same := coherent.entryIds.eq_of_key stored member named
        subst same
        exact allowed _ (mem_updateMany_of_matched stored (by simp)) rfl
  · intro spares after member isOpen
    rcases edge.origin coherent.entryIds member with
      ⟨entry, stored, step⟩ | ⟨env, body, document, _, same, _⟩
    · cases step with
      | kept => exact none _ stored isOpen
      | claimed acts => exact spares _ _ acts _ stored rfl
      | finalised acts phase change recorded =>
          have record := (reachable.step accepted).records attempts after member
          rw [OutboxEntry.isOpen, Bool.or_eq_true, decide_eq_true_eq, decide_eq_true_eq] at isOpen
          rcases isOpen with pending | processing
          · exact (record.pending pending).1
          · exact absurd processing change.not_processing
    · rw [same]
      exact attempts

/-- Throughout a run no entry is stranded, exactly when no claim of the run charges
the last attempt of its entry. -/
theorem none_stranded_iff_spares_last_attempt {actions : List Action} {last : System}
    (attempts : 1 ≤ cfg.outboxMaxAttempts) (lease : 0 < cfg.outboxClaimLeaseMs)
    (run : runActions (System.step cfg) System.initial actions = some last) :
    Throughout (System.step cfg) (NoneStranded cfg) System.initial actions ↔
      EveryStep (System.step cfg) (SparesLastAttempt cfg) System.initial actions := by
  refine throughout_iff_everyStep ?_ ?_ run
  · intro entry stored
    cases stored
  · intro state action next reached none accepted
    exact noneStranded_step attempts lease reached none accepted

/-- A run in which one entry is claimed and the worker dies. -/
def Sample.abandonedClaim : List Action :=
  [ .callback (Sample.env 1) (Sample.body [("document", Sample.file Sample.fileA)]),
    .start "worker", .claim "worker" (Sample.objectId 101), .abandon "worker" ]

/-- The one claim of the sample charges the first of three attempts. -/
theorem none_stranded_iff_spares_last_attempt_sample :
    Throughout (System.step Sample.config) (NoneStranded Sample.config) System.initial
      Sample.abandonedClaim := by
  have run : runActions (System.step Sample.config) System.initial Sample.abandonedClaim =
      some (System.after Sample.config Sample.abandonedClaim (by decide)) :=
    (Option.some_get _).symm
  refine (none_stranded_iff_spares_last_attempt (by decide) (by decide) run).mpr ?_
  rintro front action rest state split reached worker id rfl entry stored _
  have claimsOnce : front = Sample.abandonedClaim.take 2 := by
    rcases front with _ | ⟨first, _ | ⟨second, _ | ⟨third, _ | ⟨fourth, front⟩⟩⟩⟩
    · simp [Sample.abandonedClaim] at split
    · simp [Sample.abandonedClaim] at split
    · cases split
      rfl
    · simp [Sample.abandonedClaim] at split
    · simp [Sample.abandonedClaim] at split
  have fresh : ∀ entry ∈ (System.after Sample.config (Sample.abandonedClaim.take 2)
      (by decide)).store.outbox, entry.attempts + 1 < Sample.config.outboxMaxAttempts := by decide
  rw [claimsOnce] at reached
  have same : state = System.after Sample.config (Sample.abandonedClaim.take 2) (by decide) :=
    Option.some.inj (reached.symm.trans (Option.some_get _).symm)
  exact fresh entry (same ▸ stored)

/-! ## What a stranded entry comes to -/

/-- A finalisation leaves an entry alone of which the worker holds no snapshot. -/
theorem finalize_keeps_unheld {next : System} (coherent : Coherent system) {worker : WorkerId}
    {times : List Time} {publishedAt : Time}
    (edge : Edge cfg system (.finalize worker times publishedAt) next)
    (stored : entry ∈ system.store.outbox)
    (unheld : ∀ snapshot ∈ (system.run worker).held, snapshot.id ≠ entry.id) :
    entry ∈ next.store.outbox := by
  cases edge with
  | finalize phase past commits =>
      rename_i batch results rest since result
      obtain ⟨fate, spec⟩ := finalization_spec coherent.entryIds commits
      have kept : fate entry = entry := by
        rcases spec.each entry stored with ⟨kept, _⟩ | ⟨outcome, _, isSent, isFailed⟩
        · exact kept
        · obtain ⟨snapshot, inBatch, same⟩ : ∃ snapshot ∈ batch, snapshot.id = entry.id := by
            cases outcome with
            | succeeded =>
                obtain ⟨labelled, named, same⟩ := List.mem_map.mp (isSent.mpr rfl)
                obtain ⟨_, snapshot, inBatch, rfl⟩ := spec.successful labelled named
                exact ⟨snapshot, inBatch, same⟩
            | failed =>
                obtain ⟨labelled, named, same⟩ := List.mem_map.mp (isFailed.mpr rfl)
                obtain ⟨_, snapshot, inBatch, rfl⟩ := spec.failed labelled named
                exact ⟨snapshot, inBatch, same⟩
          have held : snapshot ∈ (system.run worker).held := by
            rw [phase]
            exact List.mem_append_left _ inBatch
          exact absurd same (unheld snapshot held)
      show entry ∈ result.outbox
      rw [spec.outbox_eq]
      exact List.mem_map.mpr ⟨entry, stored, kept⟩

/-- An entry that was claimed for the last time, and dropped by its owner, stays as it
is for ever. -/
theorem Reachable.stranded_forever {later : System} (reachable : Reachable cfg system)
    (stored : entry ∈ system.store.outbox) (processing : entry.status = .processing)
    (spent : cfg.outboxMaxAttempts ≤ entry.attempts) {owner : WorkerId}
    (owned : entry.claimedBy = some owner)
    (dropped : ∀ snapshot ∈ (system.run owner).held, snapshot.id ≠ entry.id)
    (reach : Reaches (System.step cfg) system later) : entry ∈ later.store.outbox := by
  have unprocessable (now : Time) : isProcessable cfg now entry ≠ true := fun processable =>
    absurd (isProcessable_iff.mp processable).1 (Nat.not_lt.mpr spent)
  refine And.left (Reaches.induction (motive := fun state => entry ∈ state.store.outbox ∧
    ∀ snapshot ∈ (state.run owner).held, snapshot.id ≠ entry.id) reach
    ⟨stored, dropped⟩ ?_)
  rintro middle action after reached ⟨stays, unheld⟩ accepted
  have edge := edge_of_step accepted
  have coherent := (reachable.reaches reached).coherent
  constructor
  · rcases edge.entry coherent.entryIds stays with ⟨changed, member, step⟩ | ⟨sent, _⟩
    · cases step with
      | kept => exact member
      | claimed _ _ processable _ => exact absurd processable (unprocessable _)
      | finalised acts _ change _ =>
          obtain ⟨times, publishedAt, rfl⟩ := acts
          cases owned.symm.trans change.owned
          exact finalize_keeps_unheld coherent edge stays unheld
    · rw [processing] at sent
      cases sent
  · intro snapshot holds
    rcases edge.held holds with ⟨before, _⟩ | ⟨now, held, claimed, _, _, found, processable, rfl, _⟩
    · exact unheld snapshot before
    · intro same
      rw [coherent.entryIds.eq_of_key found stays same] at processable
      exact unprocessable now processable

/-- Three workers in turn claim the one entry and die; each time its lease passes. -/
def Sample.crashes : List Action :=
  Sample.abandonedClaim ++
    [ .tick 300001, .start "second", .claim "second" (Sample.objectId 101), .abandon "second",
      .tick 600002, .start "third", .claim "third" (Sample.objectId 101), .abandon "third",
      .tick 900003 ]

/-- After the crashes the entry is stranded, and remains so whatever happens. -/
theorem Sample.crashes_strand_entry :
    1 ≤ Sample.config.outboxMaxAttempts ∧ 0 < Sample.config.outboxClaimLeaseMs ∧
      Reachable Sample.config (System.after Sample.config Sample.crashes (by decide)) ∧
      ¬ NoneStranded Sample.config (System.after Sample.config Sample.crashes (by decide)) ∧
      ∃ entry ∈ (System.after Sample.config Sample.crashes (by decide)).store.outbox,
        entry.status = .processing ∧
          entry.claimedUntil = some 900002 ∧
          ∀ later, Reaches (System.step Sample.config)
            (System.after Sample.config Sample.crashes (by decide)) later →
              entry ∈ later.store.outbox := by
  have reachable := Reachable.after Sample.config Sample.crashes (by decide)
  have claimed : ∃ entry ∈ (System.after Sample.config Sample.crashes (by decide)).store.outbox,
      entry.status = .processing ∧ entry.attempts = 3 ∧ entry.claimedUntil = some 900002 ∧
        entry.claimedBy = some "third" := by decide
  have idle : ((System.after Sample.config Sample.crashes (by decide)).run "third").held = [] := by
    decide
  obtain ⟨entry, stored, processing, spent, leased, owned⟩ := claimed
  refine ⟨by decide, by decide, reachable, fun none => ?_, entry, stored, processing, leased, ?_⟩
  · have isOpen : entry.isOpen = true := by simp [OutboxEntry.isOpen, processing]
    have allowed := (none entry stored isOpen).1.attempts_lt
    rw [spent] at allowed
    exact absurd allowed (by decide)
  · intro later reach
    refine reachable.stranded_forever stored processing (Nat.le_of_eq spent.symm) owned ?_
      reach
    simp [idle]

end ObjectProcessor
