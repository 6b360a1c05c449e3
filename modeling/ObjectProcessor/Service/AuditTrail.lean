import ObjectProcessor.Audit.Messages
import ObjectProcessor.Service.Origins

/-!
# The audit trail

A request acts on the service first and hands its audit events to the publisher afterwards;
between the two others may act, and its process may stop.  The events that are due are listed
when the request acts, and each is then sent, still owed, or lost.  A process sends with the
address it has resolved for itself.
-/

namespace ObjectProcessor

open Library

/-! ## The service and its trail -/

structure AuditSettings where
  pages : PageSettings
  /-- The conversion Joi applies to the text of a page size. -/
  toNumber : String → Option Rat
  blobs : BlobSettings

/-- What a request asks for, or how it fails. -/
inductive Served where
  | callback (env : CallbackEnv) (body : Json)
  | readMetadata (sbi : Int) (query : Json)
  | readBlob (path : String)
  | unauthorised (generated : String) (rejection : AuthRejection)

inductive TrailAction where
  | request (process : WorkerId) (request : AuditRequest) (served : Served)
  | report (worker : WorkerId)
  /-- Any action of the service that is no callback and no report. -/
  | other (action : Action)
  /-- The events of one request or report are sent. -/
  | send (index : Nat) (env : AuditEnv)
  /-- The process stops before it sends them. -/
  | stop (index : Nat)

/-- An event that is to be sent, outside a request if it is a worker's. -/
structure DueAudit where
  process : WorkerId
  request : Option AuditRequest
  message : AuditMessage
  deriving DecidableEq

/-- What one request or report has still to send. -/
structure OwedAudits where
  process : WorkerId
  request : Option AuditRequest
  messages : List AuditMessage
  deriving DecidableEq

def OwedAudits.due (owed : OwedAudits) : List DueAudit :=
  owed.messages.map fun message =>
    { process := owed.process, request := owed.request, message }

/-- An event and the process that has sent it. -/
structure TrailEvent extends SentAudit where
  process : WorkerId
  deriving DecidableEq

def TrailEvent.due (event : TrailEvent) : DueAudit where
  process := event.process
  request := event.request
  message := event.message

/-- The latest events come first. -/
structure Trail where
  system : System
  serviceIp : WorkerId → Option String
  due : List DueAudit
  owed : List OwedAudits
  lost : List DueAudit
  sent : List TrailEvent

namespace Trail

variable (cfg : Config) (settings : AuditSettings)

def initial : Trail where
  system := .initial
  serviceIp := fun _ => none
  due := []
  owed := []
  lost := []
  sent := []

/-- The state after a request, and the events it has given to `sendAuditEvent`. -/
def serve (system : System) (requestId : Option String) :
    Served → Option (System × List AuditMessage)
  | .callback env body =>
      (system.callback cfg env body).map fun next =>
        (next, (uploadCallback cfg env system.store body).audits.map AuditEvent.message)
  | .readMetadata sbi query =>
      let audit := if metadataQuerySchema settings.pages settings.toNumber query then
          (metadataRoute settings.pages settings.toNumber system.store.metadata sbi query).2
        else none
      some (system, audit.toList.map (ReadAudit.message requestId))
  | .readBlob path =>
      let audit := (blobRoute cfg settings.blobs system.store.metadata requestId path).bind Prod.snd
      some (system, audit.toList.map BlobAudit.message)
  | .unauthorised generated rejection =>
      some (system,
        [authFailureMessage cfg settings.blobs.baseUrl requestId generated rejection])

/-- The audit events of a report. -/
def reportAudits (system : System) (worker : WorkerId) : List FailureAudit :=
  match system.run worker with
  | .reporting failed _ =>
      (logTerminalFailuresIfAny cfg system.store.outbox (failed.map getEntryId)).2.1
  | _ => []

/-- The service has moved, and events are due. -/
def owe (trail : Trail) (next : System) (owed : OwedAudits) : Trail :=
  { trail with
    system := next
    due := owed.due.reverse ++ trail.due
    owed := trail.owed ++ [owed] }

/-- A process sends its events one after the other. -/
def send (trail : Trail) (index : Nat) (env : AuditEnv) (owed : OwedAudits) : Trail :=
  let (events, cached) :=
    sendAuditEvents env owed.request (trail.serviceIp owed.process) owed.messages
  { trail with
    serviceIp := Function.update trail.serviceIp owed.process cached
    owed := trail.owed.eraseIdx index
    sent := (events.map fun event =>
      { toSentAudit := event, process := owed.process }).reverse ++ trail.sent }

def stop (trail : Trail) (index : Nat) (owed : OwedAudits) : Trail :=
  { trail with
    owed := trail.owed.eraseIdx index
    lost := owed.due ++ trail.lost }

/-- A request with an oversized identifier goes no further. -/
def step (trail : Trail) : TrailAction → Option Trail
  | .request process request served =>
      if rejectOversizedRequestId request then some trail
      else
        (serve cfg settings trail.system request.requestId served).map fun outcome =>
          trail.owe outcome.1 { process, request := some request, messages := outcome.2 }
  | .report worker =>
      (trail.system.report cfg worker).map fun next =>
        trail.owe next
          { process := worker, request := none
            messages := (reportAudits cfg trail.system worker).map FailureAudit.message }
  | .other action =>
      match action with
      | .callback .. | .report _ => none
      | _ => (trail.system.step cfg action).map fun next => { trail with system := next }
  | .send index env => trail.owed[index]?.map (trail.send index env)
  | .stop index => trail.owed[index]?.map (trail.stop index)

/-- The identifiers of the files that are named as created. -/
def createdIds (trail : Trail) : List Json :=
  trail.due.flatMap fun audit => audit.message.named "created"

end Trail

/-! ## What a step does -/

/-- A step refuses a request, serves one, reports, acts without any event, or sends or loses
the events of one request. -/
inductive TrailEdge (cfg : Config) (settings : AuditSettings) (trail : Trail) :
    TrailAction → Trail → Prop where
  | refused {process : WorkerId} {request : AuditRequest} {served : Served}
      (oversized : rejectOversizedRequestId request = true) :
      TrailEdge cfg settings trail (.request process request served) trail
  | served {process : WorkerId} {request : AuditRequest} {served : Served}
      {next : System} {messages : List AuditMessage}
      (fits : rejectOversizedRequestId request = false)
      (serves : Trail.serve cfg settings trail.system request.requestId served =
        some (next, messages)) :
      TrailEdge cfg settings trail (.request process request served)
        (trail.owe next { process, request := some request, messages })
  | report {worker : WorkerId} {next : System}
      (accepted : trail.system.step cfg (.report worker) = some next) :
      TrailEdge cfg settings trail (.report worker)
        (trail.owe next
          { process := worker, request := none
            messages := (Trail.reportAudits cfg trail.system worker).map FailureAudit.message })
  | other {action : Action} {next : System} (accepted : trail.system.step cfg action = some next)
      (silent : ∀ env body, action ≠ .callback env body) :
      TrailEdge cfg settings trail (.other action) { trail with system := next }
  | send {index : Nat} {env : AuditEnv} {owed : OwedAudits}
      (owes : trail.owed[index]? = some owed) :
      TrailEdge cfg settings trail (.send index env) (trail.send index env owed)
  | stop {index : Nat} {owed : OwedAudits} (owes : trail.owed[index]? = some owed) :
      TrailEdge cfg settings trail (.stop index) (trail.stop index owed)

variable {cfg : Config} {settings : AuditSettings} {trail next : Trail} {action : TrailAction}

theorem trailEdge_of_step (accepted : Trail.step cfg settings trail action = some next) :
    TrailEdge cfg settings trail action next := by
  cases action with
  | request process request served =>
      simp only [Trail.step] at accepted
      split at accepted
      · rename_i oversized
        cases accepted
        exact .refused oversized
      · rename_i fits
        obtain ⟨⟨system, messages⟩, serves, rfl⟩ := Option.map_eq_some_iff.mp accepted
        exact .served (by simpa using fits) serves
  | report worker =>
      obtain ⟨system, reported, rfl⟩ := Option.map_eq_some_iff.mp accepted
      exact .report reported
  | other action =>
      simp only [Trail.step] at accepted
      split at accepted
      · cases accepted
      · cases accepted
      · rename_i notCallback _
        obtain ⟨system, stepped, rfl⟩ := Option.map_eq_some_iff.mp accepted
        exact .other stepped notCallback
  | send index env =>
      obtain ⟨owed, owes, rfl⟩ := Option.map_eq_some_iff.mp accepted
      exact .send owes
  | stop index =>
      obtain ⟨owed, owes, rfl⟩ := Option.map_eq_some_iff.mp accepted
      exact .stop owes

/-! ## Addresses -/

/-- Every event has the address of its request, or the one its process has settled on. -/
structure Trail.Addresses (trail : Trail) : Prop where
  usable : ∀ process, ∀ ip ∈ trail.serviceIp process, UsableIp ip
  each : ∀ event ∈ trail.sent, Addressed (trail.serviceIp event.process) event.toSentAudit

theorem Trail.Addresses.send (addresses : trail.Addresses) (index : Nat) (env : AuditEnv)
    (owed : OwedAudits) : (trail.send index env owed).Addresses := by
  have spec := sendAuditEvents_spec env owed.request (addresses.usable owed.process) owed.messages
  constructor
  · intro other ip known
    simp only [Trail.send, Function.update_apply] at known
    split at known
    · exact spec.usable ip known
    · exact addresses.usable other ip known
  · intro event member
    simp only [Trail.send, Function.update_apply] at member ⊢
    rcases List.mem_append.mp member with new | old
    · obtain ⟨sent, isSent, rfl⟩ := List.mem_map.mp (List.mem_reverse.mp new)
      rw [if_pos rfl]
      exact spec.addressed sent isSent
    · have addressed := addresses.each event old
      split
      · rename_i same
        rw [same] at addressed
        exact addressed.kept spec.kept
      · exact addressed

theorem Trail.Addresses.step (addresses : trail.Addresses)
    (edge : TrailEdge cfg settings trail action next) : next.Addresses := by
  cases edge with
  | send => exact addresses.send ..
  | refused => exact addresses
  | served => exact ⟨addresses.usable, addresses.each⟩
  | report => exact ⟨addresses.usable, addresses.each⟩
  | other => exact ⟨addresses.usable, addresses.each⟩
  | stop => exact ⟨addresses.usable, addresses.each⟩

theorem Trail.addresses_of_reaches
    (reach : Reaches (Trail.step cfg settings) Trail.initial trail) : trail.Addresses :=
  reach.induction (motive := Trail.Addresses) ⟨by simp [Trail.initial], by simp [Trail.initial]⟩
    fun _ _ _ _ holds accepted => holds.step (trailEdge_of_step accepted)

/-! ## What has become of the events -/

/-- Every event that was due has been sent once, is still owed, or was lost. -/
def Trail.Settled (trail : Trail) : Prop :=
  (trail.sent.map TrailEvent.due ++ (trail.owed.flatMap OwedAudits.due ++ trail.lost)).Perm
    trail.due

theorem flatMap_due_eraseIdx {owed : List OwedAudits} {index : Nat} {group : OwedAudits}
    (there : owed[index]? = some group) :
    (group.due ++ (owed.eraseIdx index).flatMap OwedAudits.due).Perm
      (owed.flatMap OwedAudits.due) := by
  obtain ⟨bound, same⟩ := List.getElem?_eq_some_iff.mp there
  have perm := (List.getElem_cons_eraseIdx_perm bound).flatMap_right OwedAudits.due
  rwa [List.flatMap_cons, same] at perm

theorem Trail.sent_send (addresses : trail.Addresses) (index : Nat) (env : AuditEnv)
    (owed : OwedAudits) :
    ∃ events : List TrailEvent,
      (trail.send index env owed).sent = events.reverse ++ trail.sent ∧
        events.map TrailEvent.due = owed.due := by
  have spec := sendAuditEvents_spec env owed.request (addresses.usable owed.process) owed.messages
  refine ⟨_, rfl, ?_⟩
  have same := congrArg (List.map fun message =>
    ({ process := owed.process, request := owed.request, message } : DueAudit)) spec.messages
  rw [List.map_map] at same ⊢
  refine Eq.trans (List.map_congr_left fun event member => ?_) same
  simp only [Function.comp_apply, TrailEvent.due, spec.request event member]

theorem Trail.Settled.step (settled : trail.Settled) (addresses : trail.Addresses)
    (edge : TrailEdge cfg settings trail action next) : next.Settled := by
  have before := List.perm_iff_count.mp settled
  have owes (system : System) (owed : OwedAudits) : (trail.owe system owed).Settled := by
    refine List.perm_iff_count.mpr fun audit => ?_
    have counted := before audit
    simp only [Trail.owe, List.flatMap_append, List.flatMap_singleton, List.count_append,
      List.count_reverse] at counted ⊢
    omega
  cases edge with
  | refused => exact settled
  | other => exact settled
  | served => exact owes ..
  | report => exact owes ..
  | send there =>
      rename_i index env owed
      obtain ⟨events, sent, same⟩ := Trail.sent_send addresses index env owed
      have taken := List.perm_iff_count.mp (flatMap_due_eraseIdx there)
      refine List.perm_iff_count.mpr fun audit => ?_
      have counted := before audit
      have moved := taken audit
      rw [sent, List.map_append, List.map_reverse, same]
      simp only [Trail.send, List.count_append, List.count_reverse] at counted moved ⊢
      omega
  | stop there =>
      have taken := List.perm_iff_count.mp (flatMap_due_eraseIdx there)
      refine List.perm_iff_count.mpr fun audit => ?_
      have counted := before audit
      have moved := taken audit
      simp only [Trail.stop, List.count_append] at counted moved ⊢
      omega

theorem Trail.settled (reach : Reaches (Trail.step cfg settings) Trail.initial trail) :
    trail.Settled := by
  refine reach.induction (motive := Trail.Settled) (.refl _) ?_
  intro middle action after reached holds accepted
  exact holds.step (Trail.addresses_of_reaches reached) (trailEdge_of_step accepted)

theorem named_read_message (action : String) (requestId : Option String) (audit : ReadAudit) :
    (audit.message requestId).named action =
      if "read" = action then audit.entities.filterMap id else [] := by
  have each : ∀ entity ∈ (audit.message requestId).entities, entity.action = "read" := by
    intro entity member
    obtain ⟨entityid, _, rfl⟩ := List.mem_map.mp member
    rfl
  rw [AuditMessage.named]
  split
  · rename_i same
    rw [List.filter_eq_self.mpr fun entity member => by simp [each entity member, same],
      ReadAudit.message, List.filterMap_map]
    rfl
  · rename_i other
    rw [List.filter_eq_nil_iff.mpr fun entity member => by simpa [each entity member] using other]
    rfl

/-- What a message that a request has due is of. -/
inductive ServedMessage (cfg : Config) (settings : AuditSettings) (system : System)
    (requestId : Option String) : Served → AuditMessage → Prop where
  | callback {env : CallbackEnv} {body : Json} {event : AuditEvent}
      (sent : event ∈ (uploadCallback cfg env system.store body).audits) :
      ServedMessage cfg settings system requestId (.callback env body) event.message
  | readMetadata {sbi : Int} {query : Json} {audit : ReadAudit}
      (audited : (metadataRoute settings.pages settings.toNumber system.store.metadata sbi
        query).2 = some audit) :
      ServedMessage cfg settings system requestId (.readMetadata sbi query)
        (audit.message requestId)
  | readBlob {path : String} {response : BlobResponse} {audit : BlobAudit}
      (answered : blobRoute cfg settings.blobs system.store.metadata requestId path =
        some (response, some audit)) :
      ServedMessage cfg settings system requestId (.readBlob path) audit.message
  | unauthorised {generated : String} {rejection : AuthRejection} :
      ServedMessage cfg settings system requestId (.unauthorised generated rejection)
        (authFailureMessage cfg settings.blobs.baseUrl requestId generated rejection)

theorem servedMessage_of_serve {system after : System} {requestId : Option String}
    {served : Served} {messages : List AuditMessage}
    (serves : Trail.serve cfg settings system requestId served = some (after, messages)) :
    ∀ message ∈ messages, ServedMessage cfg settings system requestId served message := by
  intro message member
  cases served with
  | callback env body =>
      obtain ⟨next, _, same⟩ := Option.map_eq_some_iff.mp serves
      cases same
      obtain ⟨event, sent, rfl⟩ := List.mem_map.mp member
      exact .callback sent
  | readMetadata sbi query =>
      simp only [Trail.serve, Option.some.injEq, Prod.mk.injEq] at serves
      rw [← serves.2] at member
      obtain ⟨audit, audited, rfl⟩ := List.mem_map.mp member
      rw [Option.mem_toList] at audited
      split at audited
      · exact .readMetadata audited
      · cases audited
  | readBlob path =>
      simp only [Trail.serve, Option.some.injEq, Prod.mk.injEq] at serves
      rw [← serves.2] at member
      obtain ⟨audit, audited, rfl⟩ := List.mem_map.mp member
      rw [Option.mem_toList] at audited
      obtain ⟨⟨response, _⟩, answered, same⟩ := Option.bind_eq_some_iff.mp audited
      cases same
      exact .readBlob answered
  | unauthorised generated rejection =>
      simp only [Trail.serve, Option.some.injEq, Prod.mk.injEq] at serves
      rw [← serves.2, List.mem_singleton] at member
      subst member
      exact .unauthorised

/-- No message of a rejected request names a file but as failed. -/
theorem named_authFailureMessage {baseUrl generated action : String} {requestId : Option String}
    {rejection : AuthRejection} (other : "failed" ≠ action) :
    (authFailureMessage cfg baseUrl requestId generated rejection).named action = [] := by
  simp only [AuditMessage.named, authFailureMessage, buildAuthFailureEntity]
  split <;> simp [documentEntity, other]

/-- A request is a callback, or leaves the service as it is and names nothing as created. -/
theorem Trail.serve_cases {system after : System} {requestId : Option String} {served : Served}
    {messages : List AuditMessage}
    (serves : Trail.serve cfg settings system requestId served = some (after, messages)) :
    (∃ env body, served = .callback env body ∧ system.callback cfg env body = some after ∧
        messages = (uploadCallback cfg env system.store body).audits.map AuditEvent.message) ∨
      (∀ env body, served ≠ .callback env body) ∧ after = system ∧
        ∀ message ∈ messages, message.named "created" = [] := by
  by_cases isCallback : ∃ env body, served = .callback env body
  · obtain ⟨env, body, rfl⟩ := isCallback
    obtain ⟨next, called, same⟩ := Option.map_eq_some_iff.mp serves
    cases same
    exact Or.inl ⟨env, body, rfl, called, rfl⟩
  · have other : ∀ env body, served ≠ .callback env body := by simpa using isCallback
    refine Or.inr ⟨other, ?_, fun message member => ?_⟩
    · cases served with
      | callback env body => exact absurd rfl (other env body)
      | _ =>
          simp only [Trail.serve, Option.some.injEq, Prod.mk.injEq] at serves
          exact serves.1.symm
    · cases servedMessage_of_serve serves message member with
      | callback => exact absurd rfl (other _ _)
      | readMetadata => rw [named_read_message, if_neg (by decide)]
      | readBlob => simp [AuditMessage.named, BlobAudit.message, documentEntity]
      | unauthorised => exact named_authFailureMessage (by decide)

/-! ## Creations -/

/-- The service itself moves as it does without its audits. -/
theorem Trail.system_of_step (accepted : Trail.step cfg settings trail action = some next) :
    Reaches (System.step cfg) trail.system next.system := by
  cases trailEdge_of_step accepted with
  | refused => exact .refl _
  | send => exact .refl _
  | stop => exact .refl _
  | report reported => exact .single reported
  | other stepped => exact .single stepped
  | served _ serves =>
      rcases Trail.serve_cases serves with ⟨env, body, _, called, _⟩ | ⟨_, same, _⟩
      · have stepped : trail.system.step cfg (.callback env body) = some _ := called
        exact .single stepped
      · exact same ▸ .refl _

theorem Trail.reachable (reach : Reaches (Trail.step cfg settings) Trail.initial trail) :
    Reachable cfg trail.system :=
  reach.induction (motive := fun trail => Reachable cfg trail.system) ⟨[], rfl⟩
    fun _ _ _ _ reached accepted => reached.reaches (Trail.system_of_step accepted)

/-- Some event says that the document was created. -/
def CreatedIn (due : List DueAudit) (document : InboundDocument) : Prop :=
  ∃ audit ∈ due, audit.message.Creates document

theorem CreatedIn.append {due : List DueAudit} {document : InboundDocument}
    (created : CreatedIn due document) (audits : List DueAudit) :
    CreatedIn (audits ++ due) document := by
  obtain ⟨audit, member, creates⟩ := created
  exact ⟨audit, List.mem_append_right _ member, creates⟩

/-- Publishing a document changes nothing its creation has named. -/
theorem CreatedIn.publishedOn {due : List DueAudit} {document : MetadataDocument}
    (created : CreatedIn due document.toInboundDocument) (time : Time) :
    CreatedIn due (document.publishedOn time).toInboundDocument := by
  obtain ⟨audit, member, creates⟩ := created
  exact ⟨audit, member, creates.entities, creates.correlationid, creates.accounts⟩

/-- The creation of every document, and of every payload in the outbox, was due. -/
structure Recorded (due : List DueAudit) (system : System) : Prop where
  documents : ∀ document ∈ system.store.metadata, CreatedIn due document.toInboundDocument
  entries : ∀ entry ∈ system.store.outbox, CreatedIn due entry.payload.toInboundDocument

theorem Recorded.append {due : List DueAudit} {system : System} (recorded : Recorded due system)
    (audits : List DueAudit) : Recorded (audits ++ due) system :=
  ⟨fun document member => (recorded.documents document member).append audits,
    fun entry member => (recorded.entries entry member).append audits⟩

/-- No step but a callback stores anything new. -/
theorem Recorded.other {due : List DueAudit} {system after : System} {action : Action}
    (recorded : Recorded due system) (coherent : Coherent system)
    (edge : Edge cfg system action after) (other : ∀ env body, action ≠ .callback env body) :
    Recorded due after := by
  constructor
  · intro document member
    obtain ⟨fate, new, spec⟩ := metadataStep_of_edge edge
    rcases spec.mem_cases member with ⟨before, stored, rfl⟩ | fresh
    · have created := recorded.documents before stored
      rcases spec.each before with kept | ⟨time, published⟩
      · rwa [kept]
      · rw [published]
        exact created.publishedOn time
    · obtain ⟨_, env, body, acts⟩ := spec.created document fresh
      exact absurd acts (other env body)
  · intro entry member
    rcases edge.origin coherent.entryIds member with
      ⟨before, stored, change⟩ | ⟨env, body, _, acts, _⟩
    · rw [change.payload_eq]
      exact recorded.entries before stored
    · exact absurd acts (other env body)

theorem store_of_callback {system after : System} {env : CallbackEnv} {body : Json}
    (called : system.callback cfg env body = some after) :
    after.store = (uploadCallback cfg env system.store body).store := by
  simp only [System.callback] at called
  split at called
  · cases called
    rfl
  · cases called

/-- A callback names what it stores. -/
theorem Recorded.callback {due : List DueAudit} {system after : System} {env : CallbackEnv}
    {body : Json} (recorded : Recorded due system)
    (called : system.callback cfg env body = some after) {owed : OwedAudits}
    (audits : owed.messages =
      (uploadCallback cfg env system.store body).audits.map AuditEvent.message) :
    Recorded (owed.due.reverse ++ due) after := by
  have stored := store_of_callback called
  have kept := recorded.append owed.due.reverse
  rcases uploadCallback_audits cfg env system.store body with
    ⟨documents, accepted, committed, created⟩ | ⟨metadata, outbox, _⟩
  · have named {document : MetadataDocument}
        (member : document ∈ withIds env.documentId documents) :
        CreatedIn (owed.due.reverse ++ due) document.toInboundDocument := by
      obtain ⟨event, isEvent, creates⟩ := accepted.created (inbound_of_mem_withIds member)
      have listed : event.message ∈ owed.messages := by
        rw [audits, created]
        exact List.mem_map_of_mem isEvent
      exact ⟨_, List.mem_append_left _ (List.mem_reverse.mpr (List.mem_map_of_mem listed)), creates⟩
    rw [committed] at stored
    constructor
    · intro document member
      rw [stored] at member
      rcases List.mem_append.mp member with old | fresh
      · exact kept.documents document old
      · exact named fresh
    · intro entry member
      rw [stored] at member
      rcases List.mem_append.mp member with old | fresh
      · exact kept.entries entry old
      · obtain ⟨document, listed, _, same⟩ := mem_createOutboxEntries fresh
        rw [same]
        exact named listed
  · rw [← stored] at metadata outbox
    exact ⟨metadata ▸ kept.documents, outbox ▸ kept.entries⟩

theorem Recorded.step (recorded : Recorded trail.due trail.system)
    (reachable : Reachable cfg trail.system) (edge : TrailEdge cfg settings trail action next) :
    Recorded next.due next.system := by
  cases edge with
  | refused => exact recorded
  | send => exact recorded
  | stop => exact recorded
  | report accepted =>
      exact (recorded.other reachable.coherent (edge_of_step accepted) (by simp)).append _
  | other accepted silent =>
      exact recorded.other reachable.coherent (edge_of_step accepted) silent
  | served _ serves =>
      rcases Trail.serve_cases serves with ⟨env, body, _, called, same⟩ | ⟨_, rfl, _⟩
      · exact recorded.callback called same
      · exact recorded.append _

theorem Trail.recorded (reach : Reaches (Trail.step cfg settings) Trail.initial trail) :
    Recorded trail.due trail.system := by
  refine reach.induction (motive := fun trail => Recorded trail.due trail.system) ?_ ?_
  · exact ⟨by simp [Trail.initial, System.initial], by simp [Trail.initial, System.initial]⟩
  · intro middle action after reached holds accepted
    exact holds.step (Trail.reachable reached) (trailEdge_of_step accepted)

end ObjectProcessor
