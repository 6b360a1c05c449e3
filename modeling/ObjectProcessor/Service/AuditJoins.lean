import ObjectProcessor.Library.PastTime
import ObjectProcessor.Service.AuditTrail
import ObjectProcessor.Service.PollRefinement

/-!
# What joins the events of the trail

A read names a file that was created before, and so does what the outbox gives up.  The
creations that are due are those of the stored documents, one each, unless a committed form
has overwritten one of its own files.
-/

namespace ObjectProcessor

open Library

variable {cfg : Config} {settings : AuditSettings} {trail next : Trail} {action : TrailAction}

/-! ## What precedes an event -/

/-- A file that is read was created before, for the same business and by no other customer;
and what is sent without a request says that a file created before has failed, under the
same correlation identifier and accounts. -/
structure Justified (request : Option AuditRequest) (message : AuditMessage)
    (earlier : List DueAudit) : Prop where
  reads : ∀ fileId ∈ message.named "read", ∃ origin ∈ earlier,
    origin.message.named "created" = [fileId] ∧
      origin.message.accounts.sbi = message.accounts.sbi ∧
      (message.accounts.crn = none ∨ message.accounts.crn = origin.message.accounts.crn)
  background : request = none → ∃ origin ∈ earlier, ∃ fileId,
    origin.message.named "created" = [fileId] ∧
      message.entities = [documentEntity "failed" (some fileId)] ∧
      message.correlationid = origin.message.correlationid ∧
      message.accounts = origin.message.accounts

theorem Justified.mono {request : Option AuditRequest} {message : AuditMessage}
    {earlier later : List DueAudit} (justified : Justified request message earlier)
    (kept : earlier ⊆ later) : Justified request message later := by
  constructor
  · intro fileId member
    obtain ⟨origin, before, creates⟩ := justified.reads fileId member
    exact ⟨origin, kept before, creates⟩
  · intro unasked
    obtain ⟨origin, before, fails⟩ := justified.background unasked
    exact ⟨origin, kept before, fails⟩

/-- An event that reads nothing needs no justification when it answers a request. -/
theorem justified_of_unread {request : AuditRequest} {message : AuditMessage}
    (unread : message.named "read" = []) (earlier : List DueAudit) :
    Justified (some request) message earlier :=
  ⟨by simp [unread], by simp⟩

theorem justified_callback {store : Store} {env : CallbackEnv} {body : Json}
    (request : AuditRequest) (earlier : List DueAudit) :
    ∀ event ∈ (uploadCallback cfg env store body).audits,
      Justified (some request) event.message earlier := by
  intro event member
  have acts : event.action = "created" ∨ event.action = "failed" := by
    rcases uploadCallback_audits cfg env store body with
      ⟨documents, accepted, _, audits⟩ | ⟨_, _, failures⟩
    · obtain ⟨accounts, _, same⟩ := accepted.createdEvents_eq
      rw [audits, same] at member
      obtain ⟨fileId, _, rfl⟩ := List.mem_map.mp member
      exact Or.inl rfl
    · exact Or.inr (failures.failed event member)
  refine justified_of_unread ?_ earlier
  rcases acts with created | failed
  · simp [created]
  · simp [failed]

section Reads

variable {due : List DueAudit} {system : System}

/-- A page names stored documents of one business. -/
theorem justified_readMetadata (recorded : Recorded due system) (request : AuditRequest)
    {sbi : Int} {query : Json} {audit : ReadAudit}
    (audited : (metadataRoute settings.pages settings.toNumber system.store.metadata sbi
      query).2 = some audit) :
    Justified (some request) (audit.message request.requestId) due := by
  obtain ⟨isSbi, _, shown⟩ := metadataRoute_audit audited
  refine ⟨fun fileId member => ?_, by simp⟩
  rw [named_read_message, if_pos rfl] at member
  obtain ⟨document, stored, ofSbi, rfl⟩ := shown fileId (by simpa using member)
  obtain ⟨origin, before, creates⟩ := recorded.documents document stored
  have accounts := creates.accounts
  rw [isOfSbi, decide_eq_true_eq] at ofSbi
  rw [ofSbi] at accounts
  refine ⟨origin, before, creates.named, ?_, Or.inl rfl⟩
  rw [sbi_of_buildAuditAccounts accounts, ← isSbi]
  rfl

theorem justified_readBlob (recorded : Recorded due system) (request : AuditRequest)
    {path : String} {response : BlobResponse} {audit : BlobAudit}
    (answered : blobRoute cfg settings.blobs system.store.metadata request.requestId path =
      some (response, some audit)) :
    Justified (some request) audit.message due := by
  obtain ⟨_, document, stored, named, built⟩ := blobRoute_audit answered
  obtain ⟨origin, before, creates⟩ := recorded.documents document stored
  have sameAccounts : origin.message.accounts = audit.accounts :=
    Option.some.inj (creates.accounts.symm.trans built)
  refine ⟨fun fileId member => ?_, by simp⟩
  have isFile : fileId = .str audit.entityid := by
    simpa [AuditMessage.named, BlobAudit.message, documentEntity] using member
  refine ⟨origin, before, ?_, by rw [sameAccounts]; rfl, Or.inr (by rw [sameAccounts]; rfl)⟩
  rw [creates.named, named, isFile]

/-- A report is of an entry whose document was created. -/
theorem justified_report (recorded : Recorded due system) (reachable : Reachable cfg system)
    {worker : WorkerId} {audit : FailureAudit}
    (member : audit ∈ Trail.reportAudits cfg system worker) :
    Justified none audit.message due := by
  have terminal : ∃ entry ∈ system.store.outbox, terminalFailureAudit entry = some audit := by
    unfold Trail.reportAudits at member
    split at member
    · rename_i failed rest _
      have spec := (logTerminalFailuresIfAny_spec cfg (failed.map getEntryId)
        fun entry stored => reachable.reportable stored).1
      have listed : some audit ∈ (terminalFailuresIn cfg system.store.outbox
          (failed.map getEntryId)).map terminalFailureAudit :=
        spec ▸ List.mem_map_of_mem member
      obtain ⟨entry, found, same⟩ := List.mem_map.mp listed
      exact ⟨entry, (List.mem_filter.mp found).1, same⟩
    · cases member
  obtain ⟨entry, stored, audited⟩ := terminal
  obtain ⟨origin, before, creates⟩ := recorded.entries entry stored
  obtain ⟨accounts, built, rfl⟩ := Option.map_eq_some_iff.mp audited
  obtain ⟨text, named, nonempty⟩ := (reachable.originated.entries entry stored).fileText
  have sameAccounts : origin.message.accounts = accounts :=
    Option.some.inj (creates.accounts.symm.trans built)
  have isFile : entry.fileId = .str text := named
  refine ⟨?_, fun _ => ⟨origin, before, _, creates.named, ?_, ?_, sameAccounts.symm⟩⟩
  · simp [AuditMessage.named, FailureAudit.message, documentEntity]
  · have truthy : (Json.str text).truthy = true := by simpa [Json.truthy] using nonempty
    simp only [FailureAudit.message, isFile, truthy, ↓reduceIte, named]
    rfl
  · rw [creates.correlationid]
    rfl

end Reads

/-- What a request is answered with is justified by what was due before. -/
theorem justified_serve {system after : System} {due : List DueAudit} {served : Served}
    {messages : List AuditMessage} (recorded : Recorded due system) (request : AuditRequest)
    (serves : Trail.serve cfg settings system request.requestId served = some (after, messages)) :
    ∀ message ∈ messages, Justified (some request) message due := by
  intro message member
  cases servedMessage_of_serve serves message member with
  | callback sent => exact justified_callback request due _ sent
  | readMetadata audited => exact justified_readMetadata recorded request audited
  | readBlob answered => exact justified_readBlob recorded request answered
  | unauthorised => exact justified_of_unread (named_authFailureMessage (by decide)) due

/-- Every event is justified by those that were due before. -/
def Trail.Joined (trail : Trail) : Prop :=
  EveryEvent (fun audit earlier => Justified audit.request audit.message earlier) trail.due

theorem Trail.Joined.owe (joined : trail.Joined) (system : System) {owed : OwedAudits}
    (justified : ∀ message ∈ owed.messages, Justified owed.request message trail.due) :
    (trail.owe system owed).Joined := by
  refine EveryEvent.record joined fun front audit back same => ?_
  have member : audit ∈ owed.due := by simp [same]
  obtain ⟨message, listed, rfl⟩ := List.mem_map.mp member
  exact (justified message listed).mono fun _ => List.mem_append_right _

theorem Trail.Joined.step (joined : trail.Joined) (recorded : Recorded trail.due trail.system)
    (reachable : Reachable cfg trail.system) (edge : TrailEdge cfg settings trail action next) :
    next.Joined := by
  cases edge with
  | refused => exact joined
  | other => exact joined
  | send => exact joined
  | stop => exact joined
  | served _ serves => exact joined.owe _ (justified_serve recorded _ serves)
  | report accepted =>
      refine joined.owe _ fun message member => ?_
      obtain ⟨audit, reported, rfl⟩ := List.mem_map.mp member
      exact justified_report recorded reachable reported

theorem Trail.joined (reach : Reaches (Trail.step cfg settings) Trail.initial trail) :
    trail.Joined := by
  refine reach.induction (motive := Trail.Joined) .nil ?_
  intro middle action after reached holds accepted
  exact holds.step (Trail.recorded reached) (Trail.reachable reached) (trailEdge_of_step accepted)

/-! ## One creation for each document -/

theorem createdIds_owe (trail : Trail) (system : System) (owed : OwedAudits) :
    (trail.owe system owed).createdIds.length =
      (owed.messages.flatMap (AuditMessage.named "created")).length + trail.createdIds.length := by
  have reordered := (owed.due.reverse_perm.flatMap_right fun audit =>
    audit.message.named "created").length_eq
  rw [Trail.createdIds, Trail.owe, List.flatMap_append, List.length_append, reordered,
    OwedAudits.due, List.flatMap_map]
  rfl

/-- The callback commits nothing, or no file of its form overwrites another. -/
def SparesFiles (cfg : Config) (trail : Trail) : TrailAction → Prop
  | .request _ request (.callback env body) =>
      rejectOversizedRequestId request = false →
        (uploadCallback cfg env trail.system.store body).store.metadata ≠
            trail.system.store.metadata →
          NoFileOverwritten (formAssignments body)
  | _ => True

/-- A step that is no callback stores no document. -/
theorem length_metadata_of_other {system after : System} {action : Action}
    (edge : Edge cfg system action after) (other : ∀ env body, action ≠ .callback env body) :
    after.store.metadata.length = system.store.metadata.length := by
  obtain ⟨fate, new, spec⟩ := metadataStep_of_edge edge
  have none : new = [] := by
    refine List.eq_nil_iff_forall_not_mem.mpr fun document member => ?_
    obtain ⟨_, env, body, acts⟩ := spec.created document member
    exact other env body acts
  rw [spec.metadata_eq, none, List.append_nil, List.length_map]

/-- What a step names as created, and what it stores. -/
structure Adds (cfg : Config) (trail : Trail) (action : TrailAction) (next : Trail)
    (named stored : Nat) : Prop where
  created : next.createdIds.length = named + trail.createdIds.length
  metadata : next.system.store.metadata.length = stored + trail.system.store.metadata.length
  enough : stored ≤ named
  spares : stored = named ↔ SparesFiles cfg trail action

theorem adds_of_callback {process : WorkerId} {request : AuditRequest} {env : CallbackEnv}
    {body : Json} {after : System} {messages : List AuditMessage}
    (fits : rejectOversizedRequestId request = false)
    (called : trail.system.callback cfg env body = some after)
    (audits : messages =
      (uploadCallback cfg env trail.system.store body).audits.map AuditEvent.message) :
    ∃ named stored, Adds cfg trail (.request process request (.callback env body))
      (trail.owe after { process, request := some request, messages }) named stored := by
  have isStored := store_of_callback called
  have created := createdIds_owe trail after { process, request := some request, messages }
  rcases uploadCallback_audits cfg env trail.system.store body with
    ⟨documents, accepted, committed, same⟩ | ⟨metadata, _, failures⟩
  · rw [audits, same, accepted.createdIds] at created
    obtain ⟨enough, exactly⟩ := accepted.createdIds_length
    have appended : (uploadCallback cfg env trail.system.store body).store.metadata =
        trail.system.store.metadata ++ withIds env.documentId documents := by
      rw [committed]
      rfl
    refine ⟨_, documents.length, by rwa [audits, same], ?_, enough, exactly.trans ?_⟩
    · show after.store.metadata.length = _
      rw [isStored, appended, List.length_append, length_withIds, Nat.add_comm]
    · have grows : (uploadCallback cfg env trail.system.store body).store.metadata ≠
          trail.system.store.metadata := by
        intro unchanged
        have lengths := congrArg List.length (appended.symm.trans unchanged)
        rw [List.length_append, length_withIds] at lengths
        exact accepted.nonempty (List.eq_nil_of_length_eq_zero (by omega))
      exact ⟨fun spares _ _ => spares, fun spares => spares fits grows⟩
  · have none : messages.flatMap (AuditMessage.named "created") = [] := by
      refine List.flatMap_eq_nil_iff.mpr fun message member => ?_
      rw [audits] at member
      obtain ⟨event, sent, rfl⟩ := List.mem_map.mp member
      simp [failures.failed event sent]
    rw [none] at created
    refine ⟨0, 0, created, ?_, Nat.le_refl _, ⟨fun _ _ changed => absurd metadata changed,
      fun _ => rfl⟩⟩
    show after.store.metadata.length = _
    rw [isStored, metadata, Nat.zero_add]

theorem adds_of_edge (edge : TrailEdge cfg settings trail action next) :
    ∃ named stored, Adds cfg trail action next named stored := by
  have unchanged (created : next.createdIds = trail.createdIds)
      (metadata : next.system.store.metadata.length = trail.system.store.metadata.length)
      (spares : SparesFiles cfg trail action) :
      ∃ named stored, Adds cfg trail action next named stored :=
    ⟨0, 0, by rw [created, Nat.zero_add], by rw [metadata, Nat.zero_add], Nat.le_refl _,
      iff_of_true rfl spares⟩
  cases edge with
  | send => exact unchanged rfl rfl trivial
  | stop => exact unchanged rfl rfl trivial
  | other accepted silent =>
      exact unchanged rfl (length_metadata_of_other (edge_of_step accepted) silent) trivial
  | refused oversized =>
      rename_i process request served
      refine unchanged rfl rfl ?_
      cases served with
      | callback env body => exact fun fits => by simp [oversized] at fits
      | _ => trivial
  | report accepted =>
      rename_i worker system
      have named : ((Trail.reportAudits cfg trail.system worker).map FailureAudit.message).flatMap
          (AuditMessage.named "created") = [] := by
        refine List.flatMap_eq_nil_iff.mpr fun message member => ?_
        obtain ⟨audit, _, rfl⟩ := List.mem_map.mp member
        simp [AuditMessage.named, FailureAudit.message, documentEntity]
      have created := createdIds_owe trail system
        { process := worker, request := none
          messages := (Trail.reportAudits cfg trail.system worker).map FailureAudit.message }
      rw [named] at created
      exact ⟨0, 0, created, by
        rw [Nat.zero_add]
        exact length_metadata_of_other (edge_of_step accepted) (by simp), Nat.le_refl _,
        iff_of_true rfl trivial⟩
  | served fits serves =>
      rename_i process request served system messages
      rcases Trail.serve_cases serves with
        ⟨env, body, rfl, called, audits⟩ | ⟨notCallback, rfl, unnamed⟩
      · exact adds_of_callback fits called audits
      · have created := createdIds_owe trail trail.system
          { process, request := some request, messages }
        rw [List.flatMap_eq_nil_iff.mpr unnamed] at created
        refine ⟨0, 0, created, (Nat.zero_add _).symm, Nat.le_refl _, iff_of_true rfl ?_⟩
        cases served with
        | callback env body => exact absurd rfl (notCallback env body)
        | _ => trivial

/-- As many creations were named as documents are stored. -/
def Trail.Balanced (trail : Trail) : Prop :=
  trail.createdIds.length = trail.system.store.metadata.length

/-- What is named beyond the stored documents never becomes less. -/
theorem Trail.surplus_mono {last : Trail}
    (reach : Reaches (Trail.step cfg settings) trail last) :
    trail.createdIds.length + last.system.store.metadata.length ≤
      last.createdIds.length + trail.system.store.metadata.length := by
  refine reach.induction (motive := fun last =>
    trail.createdIds.length + last.system.store.metadata.length ≤
      last.createdIds.length + trail.system.store.metadata.length) (Nat.le_refl _) ?_
  intro middle action after front holds accepted
  obtain ⟨named, stored, adds⟩ := adds_of_edge (trailEdge_of_step accepted)
  rw [adds.created, adds.metadata]
  have enough := adds.enough
  omega

theorem Trail.surplus (reach : Reaches (Trail.step cfg settings) Trail.initial trail) :
    trail.system.store.metadata.length ≤ trail.createdIds.length := by
  have grows := Trail.surplus_mono reach
  simpa [Trail.initial, Trail.createdIds, System.initial] using grows

/-- The trail is balanced exactly when no callback has committed a form that overwrote a
file. -/
theorem Trail.balanced_iff {actions : List TrailAction}
    (run : runActions (Trail.step cfg settings) Trail.initial actions = some trail) :
    trail.Balanced ↔
      EveryStep (Trail.step cfg settings) (SparesFiles cfg) Trail.initial actions := by
  have keeps : ∀ state action next, Reaches (Trail.step cfg settings) Trail.initial state →
      state.Balanced → Trail.step cfg settings state action = some next →
        (next.Balanced ↔ SparesFiles cfg state action) := by
    intro state action next reached balanced accepted
    obtain ⟨named, stored, adds⟩ := adds_of_edge (trailEdge_of_step accepted)
    rw [← adds.spares, Trail.Balanced, adds.created, adds.metadata, balanced,
      Nat.add_right_cancel_iff, eq_comm]
  have start : Trail.initial.Balanced := rfl
  rw [← throughout_iff_everyStep start keeps run]
  constructor
  · rintro balanced front rest state rfl reached
    rw [runActions_append, reached, Option.bind_some] at run
    have later := Trail.surplus_mono ⟨rest, run⟩
    have enough := Trail.surplus ⟨front, reached⟩
    rw [Trail.Balanced] at balanced ⊢
    omega
  · exact fun throughout => throughout actions [] trail (by simp) run

/-- Whatever requests and workers do in whatever order, and wherever a process stops: the
creation of every stored document is due, under its correlation identifier and accounts; every
file that is read, and every file whose delivery has failed for good, was named as created
before; each event that is due is sent once, is still owed by its request, or was lost with a
process that stopped; and the creations are those of the stored documents, one each, exactly
when no committed form has overwritten one of its files. -/
theorem audit_trail_joins {actions : List TrailAction}
    (run : runActions (Trail.step cfg settings) Trail.initial actions = some trail) :
    (∀ document ∈ trail.system.store.metadata,
        CreatedIn trail.due document.toInboundDocument) ∧
      EveryEvent (fun audit earlier => Justified audit.request audit.message earlier)
        trail.due ∧
      (trail.sent.map TrailEvent.due ++
        (trail.owed.flatMap OwedAudits.due ++ trail.lost)).Perm trail.due ∧
      (trail.createdIds.Perm (trail.system.store.metadata.map MetadataDocument.fileId) ↔
        EveryStep (Trail.step cfg settings) (SparesFiles cfg) Trail.initial actions) := by
  have reach : Reaches (Trail.step cfg settings) Trail.initial trail := ⟨actions, run⟩
  have recorded := Trail.recorded reach
  refine ⟨recorded.documents, Trail.joined reach, Trail.settled reach, ?_⟩
  rw [← Trail.balanced_iff run, Trail.Balanced]
  have named : trail.system.store.metadata.map MetadataDocument.fileId ⊆ trail.createdIds := by
    intro fileId member
    obtain ⟨document, stored, rfl⟩ := List.mem_map.mp member
    obtain ⟨audit, due, creates⟩ := recorded.documents document stored
    exact List.mem_flatMap.mpr ⟨audit, due, creates.named ▸ List.mem_singleton_self _⟩
  have distinct : (trail.system.store.metadata.map MetadataDocument.fileId).Nodup :=
    (Trail.reachable reach).coherent.fileIds
  have within := distinct.subperm named
  constructor
  · intro same
    rw [same.length_eq, List.length_map]
  · intro balanced
    exact (within.perm_of_length_le (by rw [List.length_map, balanced])).symm

namespace Sample

def auditEnv : AuditEnv where
  interfaces := some
    [ { address := .ipv4 127 0 0 1, internal := true },
      { address := .ipv4 10 0 0 7, internal := false } ]
  publishAuditEvent _ _ := none

def auditRequest : AuditRequest where
  requestId := some "trace"
  forwardedFor := some "203.0.113.9, 10.0.0.1"
  remoteAddress := some "10.0.0.2"

def auditSettings : AuditSettings where
  pages := { metadataSbiPageSize := 20, metadataSbiMaxPageSize := 100, positive := by decide }
  toNumber _ := none
  blobs := { baseUrl := "/api/v1", getSignedUrl _ := none }

/-- A file is stored and read, and its only delivery fails.  The events of the callback and of
the read are sent at last, in the other order; the process of the report stops. -/
def audited : List TrailAction :=
  [ .other (.initiate session),
    .request "server" auditRequest (.callback (journeyEnv 1) (journeyBody "ready")),
    .request "server" auditRequest (.readMetadata 105000000 (.obj [])),
    .other (.start "worker"), .other (.claim "worker" (objectId 101)),
    .other (.claimsDone "worker"), .other (.publish "worker" (.threw none none)),
    .other (.finalize "worker" [0] 0), .report "worker", .stop 2, .send 1 auditEnv,
    .send 0 auditEnv ]

def auditTrail : Trail :=
  (runActions (Trail.step oneAttempt auditSettings) Trail.initial audited).get (by decide)

theorem auditTrail_of_run : runActions (Trail.step oneAttempt auditSettings) Trail.initial
    audited = some auditTrail := (Option.some_get _).symm

end Sample

theorem audit_trail_joins_sample :
    (Sample.auditTrail.sent.map fun event => event.message.entities) =
        [ [documentEntity "created" (some (.str Sample.fileA))],
          [documentEntity "read" (some (.str Sample.fileA))] ] ∧
      EveryEvent (fun audit earlier => Justified audit.request audit.message earlier)
        Sample.auditTrail.due :=
  ⟨by decide, (audit_trail_joins Sample.auditTrail_of_run).2.1⟩

end ObjectProcessor
