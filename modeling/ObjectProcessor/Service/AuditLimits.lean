import ObjectProcessor.Service.AuditJoins

/-!
# Limits of the audit trail

Every event of a run names an entity, has a short correlation identifier if it has one,
and carries one short address.  An entity keeps the identifier it was given: that of a
refused callback is whatever its body holds.
-/

namespace ObjectProcessor

open Library

variable {cfg : Config} {settings : AuditSettings} {trail next : Trail} {action : TrailAction}

/-! ## Identifiers -/

theorem unitLength_of_isLenient {text : String} (lenient : isLenientUuidV4 text = true) :
    Json.unitLength text ≤ maxRequestIdLength := by
  rw [Json.unitLength_eq_length]
  · exact Nat.le_trans (isLenientUuidV4_length lenient) (by decide)
  · intro char member
    have isLenient := isLenientUuidV4_chars lenient char member
    rw [isLenientChar, Bool.or_eq_true, decide_eq_true_eq] at isLenient
    rcases isLenient with hex | mark
    · exact Nat.lt_trans (toNat_lt_of_isHexDigit hex) (by decide)
    · have marks : ∀ mark ∈ ['-', ':', '[', ']', '(', ')', '\x7b', '\x7d'], mark.toNat < 65536 := by
        simp
      exact marks char mark

theorem unitLength_of_isUuid {text : String} (canonical : isUuid text = true) :
    Json.unitLength text ≤ maxRequestIdLength := by
  rw [Json.unitLength_eq_length, isUuid_length canonical]
  · decide
  · intro char member
    rcases isUuid_chars canonical char member with hex | rfl
    · exact Nat.lt_trans (toNat_lt_of_isHexDigit hex) (by decide)
    · decide

theorem resolveJourneyId_cases (cfg : Config) (lookup : Option (List Session))
    (generated : String) (rawJourneyId : Option Json) (metadata : Json) :
    resolveJourneyId cfg lookup generated rawJourneyId metadata = generated ∨
      cfg.isUuidV4 (resolveJourneyId cfg lookup generated rawJourneyId metadata) = true := by
  unfold resolveJourneyId
  cases valid : isValidJourneyId cfg rawJourneyId with
  | none => exact Or.inl rfl
  | some journeyId =>
      have isUuid : cfg.isUuidV4 journeyId = true := by
        unfold isValidJourneyId at valid
        split at valid
        · split at valid
          · rename_i checked
            cases valid
            rw [Bool.and_eq_true] at checked
            exact checked.2
          · cases valid
        · cases valid
      cases lookup with
      | none => exact Or.inl rfl
      | some sessions =>
          dsimp only
          split
          · split
            · exact Or.inr isUuid
            · exact Or.inl rfl
          · exact Or.inl rfl

/-- What `randomUUID` has returned to a request is a canonical UUID. -/
def TrailAction.GeneratesUuids : TrailAction → Prop
  | .request _ _ (.callback env _) => isUuid env.generated = true
  | .request _ _ (.unauthorised generated _) => isUuid generated = true
  | _ => True

/-! ## Events -/

/-- An event names an entity, its correlation identifier is short, and its CRN canonical. -/
structure WithinLimits (message : AuditMessage) : Prop where
  correlationid : ∀ id ∈ message.correlationid, Json.unitLength id ≤ maxRequestIdLength
  entities : message.entities ≠ []
  crn : ∀ text ∈ message.accounts.crn, ∃ crn : Crn, text = toString crn.value

theorem validCrn?_range {crn : Option Json} {value : Nat} (valid : validCrn? crn = some value) :
    schemaConsts.CRN_MIN ≤ value ∧ value ≤ schemaConsts.CRN_MAX := by
  unfold validCrn? at valid
  split at valid
  · split at valid
    · rename_i number inRange
      cases valid
      simp only [Bool.and_eq_true, decide_eq_true_eq] at inRange
      omega
    · cases valid
  · split at valid
    · dsimp only at valid
      split at valid
      · rename_i inRange
        cases valid
        simpa [Bool.and_eq_true] using inRange
      · cases valid
    · cases valid
  · cases valid

theorem Attributed.crn {accounts : AuditAccounts} (attributed : Attributed accounts) :
    ∀ text ∈ accounts.crn, ∃ crn : Crn, text = toString crn.value := by
  obtain ⟨sbi, crn, built⟩ := attributed
  unfold buildAuditAccounts at built
  split at built
  · cases built
    intro text carried
    obtain ⟨value, valid, rfl⟩ := Option.map_eq_some_iff.mp carried
    exact ⟨⟨value, (validCrn?_range valid).1, (validCrn?_range valid).2⟩, rfl⟩
  · cases built

theorem withinLimits_callback {env : CallbackEnv} {store : Store} {body : Json}
    (lenient : ∀ text, cfg.isUuidV4 text = true → isLenientUuidV4 text = true)
    (canonical : isUuid env.generated = true) :
    ∀ event ∈ (uploadCallback cfg env store body).audits, WithinLimits event.message := by
  have short : Json.unitLength (callbackCorrelationId cfg env store body) ≤
      maxRequestIdLength := by
    rcases resolveJourneyId_cases cfg (env.sessionsSeen.map store.sessions.take)
      env.generated (splitJourneyId ((requestPayload cfg body).get? "metadata")).1
      (splitJourneyId ((requestPayload cfg body).get? "metadata")).2 with generated | valid
    · exact (congrArg Json.unitLength generated).le.trans (unitLength_of_isUuid canonical)
    · exact unitLength_of_isLenient (lenient _ valid)
  intro event member
  have facts : event.correlationId = callbackCorrelationId cfg env store body ∧
      Attributed event.accounts := by
    rcases uploadCallback_audits cfg env store body with
      ⟨documents, accepted, _, audits⟩ | ⟨_, _, failures⟩
    · obtain ⟨accounts, built, same⟩ := accepted.createdEvents_eq
      rw [audits, same] at member
      obtain ⟨fileId, _, rfl⟩ := List.mem_map.mp member
      exact ⟨rfl, _, _, built⟩
    · exact ⟨failures.correlated event member, failures.attributed event member⟩
  refine ⟨?_, by simp [AuditEvent.message], facts.2.crn⟩
  rintro id ⟨⟩
  rw [facts.1]
  exact short

theorem withinLimits_serve {system after : System} {served : Served}
    {messages : List AuditMessage} {request : AuditRequest} {process : WorkerId}
    (lenient : ∀ text, cfg.isUuidV4 text = true → isLenientUuidV4 text = true)
    (canonical : (TrailAction.request process request served).GeneratesUuids)
    (fits : rejectOversizedRequestId request = false)
    (serves : Trail.serve cfg settings system request.requestId served = some (after, messages)) :
    ∀ message ∈ messages, WithinLimits message := by
  have requestId : ∀ id ∈ request.requestId, Json.unitLength id ≤ maxRequestIdLength := by
    intro id given
    rw [rejectOversizedRequestId, Option.mem_def.mp given] at fits
    simpa using fits
  intro message member
  cases servedMessage_of_serve serves message member with
  | callback sent => exact withinLimits_callback lenient canonical _ sent
  | readMetadata audited =>
      obtain ⟨_, named, _⟩ := metadataRoute_audit audited
      exact ⟨requestId, by simpa [ReadAudit.message] using named, by simp [ReadAudit.message]⟩
  | readBlob answered =>
      rename_i path response audit
      obtain ⟨correlated, document, _, _, built⟩ := blobRoute_audit answered
      have attributed : Attributed audit.accounts := ⟨_, _, built⟩
      exact ⟨by rw [BlobAudit.message, correlated]; exact requestId, by simp [BlobAudit.message],
        attributed.crn⟩
  | unauthorised =>
      refine ⟨?_, by simp [authFailureMessage], by simp [authFailureMessage]⟩
      rintro id ⟨⟩
      cases given : request.requestId with
      | none => exact unitLength_of_isUuid canonical
      | some id => exact requestId id given

/-! ## Runs -/

def Trail.Limited (trail : Trail) : Prop :=
  ∀ audit ∈ trail.due, WithinLimits audit.message

theorem Trail.Limited.owe (limited : trail.Limited) (system : System) {owed : OwedAudits}
    (within : ∀ message ∈ owed.messages, WithinLimits message) :
    (trail.owe system owed).Limited := by
  intro audit member
  rcases List.mem_append.mp member with new | old
  · obtain ⟨message, listed, rfl⟩ := List.mem_map.mp (List.mem_reverse.mp new)
    exact within message listed
  · exact limited audit old

theorem Trail.Limited.step
    (lenient : ∀ text, cfg.isUuidV4 text = true → isLenientUuidV4 text = true)
    (reached : Reaches (Trail.step cfg settings) Trail.initial trail) (limited : trail.Limited)
    (canonical : action.GeneratesUuids) (edge : TrailEdge cfg settings trail action next) :
    next.Limited := by
  cases edge with
  | refused => exact limited
  | other => exact limited
  | send => exact limited
  | stop => exact limited
  | served fits serves =>
      exact limited.owe _ (withinLimits_serve lenient canonical fits serves)
  | report accepted =>
      -- What is reported carries the identifiers of its creation, which was due before.
      refine limited.owe _ fun message member => ?_
      obtain ⟨audit, reported, rfl⟩ := List.mem_map.mp member
      have justified := justified_report (Trail.recorded reached) (Trail.reachable reached) reported
      obtain ⟨origin, before, _, _, entities, correlationid, accounts⟩ := justified.background rfl
      have within := limited origin before
      exact ⟨correlationid ▸ within.correlationid, by simp [entities], accounts ▸ within.crn⟩

theorem Trail.limited {actions : List TrailAction}
    (lenient : ∀ text, cfg.isUuidV4 text = true → isLenientUuidV4 text = true)
    (canonical : ∀ action ∈ actions, action.GeneratesUuids)
    (run : runActions (Trail.step cfg settings) Trail.initial actions = some trail) :
    trail.Limited := by
  have start : Trail.initial.Limited := by simp [Trail.Limited, Trail.initial]
  have admitted : EveryStep (Trail.step cfg settings) (fun _ => TrailAction.GeneratesUuids)
      Trail.initial actions := by
    rintro front action rest state rfl _
    exact canonical action (by simp)
  refine throughout_of_everyStep start ?_ admitted actions [] trail (by simp) run
  intro state action next reached limited generates accepted
  exact limited.step lenient reached generates (trailEdge_of_step accepted)

/-- Every event of every run names an entity, its correlation identifier is short, if it has
one, and its address is one short address.  A process uses one address for all events whose
requests name none.  A CRN on an event is a canonical one, and the reason a failure is logged
with discloses it only where the mask is rejoined. -/
theorem audit_events_within_limits {actions : List TrailAction}
    (lenient : ∀ text, cfg.isUuidV4 text = true → isLenientUuidV4 text = true)
    (canonical : ∀ action ∈ actions, action.GeneratesUuids)
    (run : runActions (Trail.step cfg settings) Trail.initial actions = some trail) :
    (∀ event ∈ trail.sent, event.message.entities ≠ [] ∧
        (∀ id ∈ event.message.correlationid, Json.unitLength id ≤ maxRequestIdLength) ∧
        UsableIp event.ip) ∧
      (∀ event ∈ trail.sent, ∀ other ∈ trail.sent, event.process = other.process →
        event.request.bind AuditRequest.ip? = none →
          other.request.bind AuditRequest.ip? = none → event.ip = other.ip) ∧
      ∀ event ∈ trail.sent, ∀ text ∈ event.message.accounts.crn,
        ∃ crn : Crn, text = toString crn.value ∧ ∀ error ∈ event.rejection,
          ∃ reason, event.logged = some reason ∧
            (crn.digits <:+: reason ↔ Rejoined error crn) := by
  have reach : Reaches (Trail.step cfg settings) Trail.initial trail := ⟨actions, run⟩
  have addresses := Trail.addresses_of_reaches reach
  have limited : ∀ event ∈ trail.sent, WithinLimits event.message := by
    intro event member
    have due : event.due ∈ trail.due :=
      (Trail.settled reach).subset (List.mem_append_left _ (List.mem_map_of_mem member))
    exact Trail.limited lenient canonical run event.due due
  refine ⟨fun event member => ?_, ?_, ?_⟩
  · have within := limited event member
    exact ⟨within.entities, within.correlationid, (addresses.each event member).usable⟩
  · intro event member other otherMember same unnamed otherUnnamed
    have own := (addresses.each event member).origin
    have others := (addresses.each other otherMember).origin
    rw [unnamed] at own
    rw [otherUnnamed, ← same] at others
    have cached := (own.resolve_left (by simp)).2
    have otherCached := (others.resolve_left (by simp)).2
    exact Option.some.inj (cached.symm.trans otherCached)
  · intro event member text carried
    obtain ⟨crn, rfl⟩ := (limited event member).crn text carried
    refine ⟨crn, rfl, fun error rejected => ?_⟩
    have value : event.message.accounts.crnValue = .text crn.digits := by
      rw [AuditAccounts.crnValue, Option.mem_def.mp carried]
      rfl
    have logged := (addresses.each event member).masked
    rw [Option.mem_def.mp rejected, Option.bind_some, value] at logged
    have answered := maskCrnInText_eq (.text : CrnGiven crn _) error
    exact ⟨_, logged.trans answered, disclosed_iff_rejoined .text answered⟩

theorem audit_events_within_limits_sample :
    (Sample.auditTrail.sent.map fun event => event.ip) = ["203.0.113.9", "203.0.113.9"] ∧
      ∀ event ∈ Sample.auditTrail.sent, UsableIp event.ip := by
  have canonical : ∀ action ∈ Sample.audited, action.GeneratesUuids := by
    have generated : isUuid (Sample.journeyEnv 1).generated = true := by decide
    simp [Sample.audited, TrailAction.GeneratesUuids, generated]
  have limits := audit_events_within_limits (fun _ => id) canonical Sample.auditTrail_of_run
  exact ⟨by decide, fun event member => (limits.1 event member).2.2⟩

end ObjectProcessor
