import ObjectProcessor.Library.Counting
import ObjectProcessor.Library.Tally
import ObjectProcessor.Outbox.Backlog
import ObjectProcessor.Service.Batches
import ObjectProcessor.Service.Exclusivity
import ObjectProcessor.Service.Stranding

/-!
# What the backlog metrics say of a run

Every entry ever created is open, was delivered, or was given up, so the number of open
entries is what has come in less what has gone out.  A stranded entry stays open, and the
age of the backlog never falls below its age again.
-/

namespace ObjectProcessor

open Library

variable {cfg : Config} {system next : System} {action : Action}

def Event.isDelivery : Event → Bool
  | .finalised _ _ .succeeded => true
  | _ => false

def Event.isExpiry : Event → Bool
  | .expired _ => true
  | _ => false

/-- The number of claims finalised as delivered. -/
def timesDelivered (history : List Event) : Nat := history.countP Event.isDelivery

/-- The number of entries the index has deleted. -/
def timesExpired (history : List Event) : Nat := history.countP Event.isExpiry

def OutboxEntry.isSent (entry : OutboxEntry) : Bool := entry.status = .sent

def OutboxEntry.isGivenUp (entry : OutboxEntry) : Bool := entry.status = .permanentFailure

/-- An entry is open, given up or sent. -/
theorem OutboxEntry.closed_iff (entry : OutboxEntry) :
    (entry.isOpen = true ∧ entry.isGivenUp = false ∧ entry.isSent = false) ∨
      (entry.isOpen = false ∧ entry.isGivenUp = true ∧ entry.isSent = false) ∨
      (entry.isOpen = false ∧ entry.isGivenUp = false ∧ entry.isSent = true) := by
  have cases : entry.status = .pending ∨ entry.status = .processing ∨
      entry.status = .permanentFailure ∨ entry.status = .sent := by
    cases entry.status <;> simp
  rcases cases with status | status | status | status <;>
    simp [isOpen, isGivenUp, isSent, status]

theorem length_eq_open_add_closed (outbox : List OutboxEntry) :
    outbox.length = pendingOutboxCount outbox + matchedCount OutboxEntry.isGivenUp outbox +
      matchedCount OutboxEntry.isSent outbox := by
  induction outbox with
  | nil => rfl
  | cons entry rest ih =>
      simp only [pendingOutboxCount, matchedCount, List.length_cons, List.countP_cons] at ih ⊢
      rcases entry.closed_iff with ⟨isOpen, isGivenUp, isSent⟩ | ⟨isOpen, isGivenUp, isSent⟩ |
          ⟨isOpen, isGivenUp, isSent⟩ <;>
        simp only [isOpen, isGivenUp, isSent, Bool.false_eq_true, ↓reduceIte] <;> omega

/-- What has come in and what has gone out. -/
structure Flow (system : System) : Prop where
  created : (createdEntries system.history).length =
    system.store.outbox.length + timesExpired system.history
  delivered : timesDelivered system.history =
    matchedCount OutboxEntry.isSent system.store.outbox + timesExpired system.history

/-- A step that records neither a delivery nor an expiry, and changes no entry that is sent. -/
theorem Flow.of_quiet (flow : Flow system) (events : List Event)
    (recorded : next.history = events ++ system.history)
    (created : createdEntries events = [])
    (quiet : ∀ event ∈ events, event.isDelivery = false ∧ event.isExpiry = false)
    (length : next.store.outbox.length = system.store.outbox.length)
    (sent : matchedCount OutboxEntry.isSent next.store.outbox =
      matchedCount OutboxEntry.isSent system.store.outbox) : Flow next := by
  have noDelivery : events.countP Event.isDelivery = 0 :=
    List.countP_eq_zero.mpr fun event member => by simp [(quiet event member).1]
  have noExpiry : events.countP Event.isExpiry = 0 :=
    List.countP_eq_zero.mpr fun event member => by simp [(quiet event member).2]
  constructor
  · rw [recorded, createdEntries_append, created, List.nil_append, timesExpired,
      List.countP_append, noExpiry, Nat.zero_add, length]
    exact flow.created
  · rw [recorded, timesDelivered, List.countP_append, noDelivery, timesExpired,
      List.countP_append, noExpiry, Nat.zero_add, Nat.zero_add, sent]
    exact flow.delivered

/-- A callback brings in the entries it appends, none of which is sent. -/
theorem flow_callback (flow : Flow system) {env : CallbackEnv} {body : Json}
    (coherent : Coherent system) (edge : Edge cfg system (.callback env body) next) :
    Flow next := by
  obtain ⟨new, appended, created, _⟩ := edge.appends
  have unsent : matchedCount OutboxEntry.isSent new = 0 := by
    refine List.countP_eq_zero.mpr fun entry member => ?_
    have after : entry ∈ next.store.outbox := appended ▸ List.mem_append_right _ member
    rcases edge.origin coherent.entryIds after with
      ⟨before, stored, change⟩ | ⟨_, _, document, _, same, _⟩
    · -- The identifiers of appended entries are new.
      have unique := (coherent_step coherent edge).entryIds
      rw [UniqueBy, appended, List.map_append] at unique
      exact absurd (List.mem_map_of_mem member) (List.disjoint_of_nodup_append unique
        (change.id_eq ▸ List.mem_map_of_mem stored))
    · rw [same]
      simp [OutboxEntry.isSent, OutboxEntry.created]
  have sent : matchedCount OutboxEntry.isSent next.store.outbox =
      matchedCount OutboxEntry.isSent system.store.outbox := by
    rw [appended, matchedCount, List.countP_append]
    exact (congrArg _ unsent).trans (Nat.add_zero _)
  have recorded : timesExpired next.history = timesExpired system.history ∧
      timesDelivered next.history = timesDelivered system.history := by
    cases edge with
    | callback =>
        constructor <;>
        · refine countP_append_of_silent _ fun event member => ?_
          obtain ⟨entry, _, rfl⟩ := List.mem_map.mp member
          rfl
  constructor
  · rw [created, appended, recorded.1, List.length_append, List.length_append, flow.created]
    omega
  · rw [recorded.1, recorded.2, sent]
    exact flow.delivered

/-- A finalisation delivers the entries it lists as successful, each of which becomes sent. -/
theorem flow_finalize (flow : Flow system) (coherent : Coherent system) {worker : WorkerId}
    {times : List Time} {publishedAt : Time}
    (edge : Edge cfg system (.finalize worker times publishedAt) next) : Flow next := by
  cases edge with
  | finalize phase past commits =>
      rename_i batch results rest since result
      obtain ⟨fate, spec⟩ := finalization_spec coherent.entryIds commits
      have distinct : UniqueBy OutboxEntry.id result.finalizedSuccessful := by
        have both := spec.distinct
        rw [List.map_append] at both
        exact (List.nodup_append.mp both).1
      have sent : matchedCount OutboxEntry.isSent (system.store.outbox.map fate) =
          matchedCount OutboxEntry.isSent system.store.outbox +
            result.finalizedSuccessful.length := by
        refine matchedCount_map_of_listed coherent.entryIds distinct ?_ ?_ ?_
        · intro labelled named
          obtain ⟨⟨entry, stored, same⟩, _⟩ := spec.successful labelled named
          exact List.mem_map.mpr ⟨entry, stored, same⟩
        · intro entry stored
          rcases spec.each entry stored with ⟨kept, notSent, _⟩ | ⟨outcome, change, isSent, _⟩
          · simp [kept, notSent]
          · have processing := change.processing
            simp [OutboxEntry.isSent, change.sent_iff, isSent, processing]
        · intro entry stored named
          rcases spec.each entry stored with ⟨_, notSent, _⟩ | ⟨outcome, change, _, _⟩
          · exact absurd named notSent
          · simp [OutboxEntry.isSent, change.processing]
      have events : createdEntries (finalizationEvents worker result) = [] ∧
          (finalizationEvents worker result).countP Event.isExpiry = 0 ∧
          (finalizationEvents worker result).countP Event.isDelivery =
            result.finalizedSuccessful.length := by
        refine ⟨?_, ?_, ?_⟩
        · refine createdEntries_eq_nil ?_
          rintro event member entry rfl
          rcases mem_finalizationEvents.mp member with ⟨_, _, same⟩ | ⟨_, _, same⟩ <;> cases same
        · refine List.countP_eq_zero.mpr fun event member => ?_
          rcases mem_finalizationEvents.mp member with ⟨_, _, rfl⟩ | ⟨_, _, rfl⟩
          · simp [Event.isExpiry]
          · simp [Event.isExpiry]
        · simp [finalizationEvents, List.countP_append, List.countP_map, Function.comp_def,
            Event.isDelivery]
      obtain ⟨noneCreated, noneExpired, delivered⟩ := events
      constructor
      · show (createdEntries (finalizationEvents worker result ++ system.history)).length =
          result.outbox.length + timesExpired (finalizationEvents worker result ++ system.history)
        rw [createdEntries_append, noneCreated, List.nil_append, timesExpired,
          List.countP_append, noneExpired, Nat.zero_add, spec.outbox_eq, List.length_map]
        exact flow.created
      · show timesDelivered (finalizationEvents worker result ++ system.history) =
          matchedCount OutboxEntry.isSent result.outbox +
            timesExpired (finalizationEvents worker result ++ system.history)
        rw [timesDelivered, List.countP_append, delivered, timesExpired, List.countP_append,
          noneExpired, Nat.zero_add, spec.outbox_eq, sent]
        have before := flow.delivered
        rw [timesDelivered, timesExpired] at before
        omega

/-- An expiry takes one sent entry out. -/
theorem flow_expire (flow : Flow system) (coherent : Coherent system) {id : ObjectId}
    (edge : Edge cfg system (.expire id) next) : Flow next := by
  cases edge with
  | expire member sent =>
      rename_i entry
      have split (property : OutboxEntry → Bool) (holds : property entry = true) :
          matchedCount property system.store.outbox = matchedCount property
            (system.store.outbox.filter fun other => decide (other.id ≠ entry.id)) + 1 := by
        have pinned : ∀ other : OutboxEntry,
            (property other && decide (other.id = entry.id)) = true → other.id = entry.id := by
          simp
        have single : matchedCount (fun other => property other && decide (other.id = entry.id))
            system.store.outbox = 1 :=
          (coherent.entryIds.matchedCount_eq_one_iff pinned).mpr ⟨entry, member, by simp [holds]⟩
        rw [← single]
        simp only [matchedCount, List.countP_filter]
        refine matchedCount_or (fun other _ => ?_) fun other _ taken => ?_
        · by_cases same : other.id = entry.id <;> simp [same]
        · simp only [Bool.and_eq_true, decide_eq_true_eq] at taken
          simp [taken.2]
      have length := split (fun _ => true) rfl
      simp only [matchedCount, List.countP_true] at length
      have isSent := split OutboxEntry.isSent (by simp [OutboxEntry.isSent, sent])
      have before := flow.delivered
      have created := flow.created
      constructor
      · show (createdEntries system.history).length =
          (system.store.outbox.filter fun other => decide (other.id ≠ entry.id)).length +
            timesExpired (.expired entry :: system.history)
        rw [timesExpired, List.countP_cons_of_pos rfl]
        rw [timesExpired] at created
        omega
      · show timesDelivered system.history = matchedCount OutboxEntry.isSent
          (system.store.outbox.filter fun other => decide (other.id ≠ entry.id)) +
            timesExpired (.expired entry :: system.history)
        rw [timesExpired, List.countP_cons_of_pos rfl]
        rw [timesExpired] at before
        omega

theorem flow_step (flow : Flow system) (coherent : Coherent system)
    (edge : Edge cfg system action next) : Flow next := by
  have isEdge := edge
  cases edge with
  | callback => exact flow_callback flow coherent isEdge
  | finalize => exact flow_finalize flow coherent isEdge
  | expire => exact flow_expire flow coherent isEdge
  | tick => exact flow.of_quiet [] rfl rfl (by simp) rfl rfl
  | initiate => exact flow.of_quiet [] rfl rfl (by simp) rfl rfl
  | claimsDone => exact flow.of_quiet [] rfl rfl (by simp) rfl rfl
  | abandon => exact flow.of_quiet [] rfl rfl (by simp) rfl rfl
  | start => exact flow.of_quiet [_] rfl rfl (by simp [Event.isDelivery, Event.isExpiry]) rfl rfl
  | publish =>
      exact flow.of_quiet [_] rfl rfl (by simp [Event.isDelivery, Event.isExpiry]) rfl rfl
  | report =>
      refine flow.of_quiet _ rfl (createdEntries_eq_nil (by simp)) ?_ rfl rfl
      simp [Event.isDelivery, Event.isExpiry]
  | claim phase room member oldest =>
      rename_i worker now claimed entry
      refine flow.of_quiet [_] rfl rfl (by simp [Event.isDelivery, Event.isExpiry]) ?_ ?_
      · simp [System.setOutbox, System.setRun, System.record, updateMany]
      · rw [isOldestProcessable, Bool.and_eq_true] at oldest
        have isOpen := isOpen_of_isProcessable oldest.1
        show matchedCount OutboxEntry.isSent (updateMany _ _ system.store.outbox) = _
        rw [matchedCount, updateMany, List.countP_map]
        refine List.countP_congr fun other stored => ?_
        by_cases same : other.id = entry.id
        · rw [coherent.entryIds.eq_of_key stored member same]
          have unsent : entry.isSent = false := by
            rcases entry.closed_iff with ⟨_, _, unsent⟩ | ⟨closed, _⟩ | ⟨closed, _⟩
            · exact unsent
            · rw [isOpen] at closed
              cases closed
            · rw [isOpen] at closed
              cases closed
          have processing : (claimUpdate cfg worker now entry).isSent = false := rfl
          simp [unsent, processing]
        · simp [same]

theorem Reachable.flow (reachable : Reachable cfg system) : Flow system := by
  refine Reaches.induction (motive := Flow) reachable ⟨rfl, rfl⟩ ?_
  intro before action after reached holds accepted
  exact flow_step holds (Reachable.coherent reached) (edge_of_step accepted)

/-! ## Readings -/

/-- A poll emits the backlog of two states, the second of which may be later, and reads the
clock after both. -/
structure BacklogReading (cfg : Config) where
  counted : System
  sorted : System
  reachable : Reachable cfg counted
  inOrder : Reaches (System.step cfg) counted sorted
  now : Time
  past : sorted.clock ≤ now

namespace BacklogReading

variable (reading : BacklogReading cfg)

def metrics : PendingOutboxMetrics :=
  getPendingOutboxMetrics reading.counted.store.outbox reading.sorted.store.outbox

def age : Rat := oldestPendingAgeSeconds reading.now reading.metrics.oldestCreatedAt

end BacklogReading

theorem Reachable.reaches_self (_ : Reachable cfg system) :
    Reaches (System.step cfg) system system := .refl system

/-- A reading that sees one state and is taken at once. -/
def BacklogReading.atOnce (reachable : Reachable cfg system) : BacklogReading cfg where
  counted := system
  sorted := system
  reachable := reachable
  inOrder := reachable.reaches_self
  now := system.clock
  past := Nat.le_refl _

/-- A run only adds to the history. -/
theorem history_of_reaches {later : System} (reach : Reaches (System.step cfg) system later) :
    ∃ events, later.history = events ++ system.history := by
  refine reach.induction (motive := fun last => ∃ events, last.history = events ++ system.history)
    ⟨[], rfl⟩ ?_
  rintro middle action after reached ⟨events, recorded⟩ accepted
  obtain ⟨more, added⟩ := (edge_of_step accepted).grows
  exact ⟨more ++ events, by rw [added, recorded, List.append_assoc]⟩

/-- No entry that was given up is ever anything else again. -/
theorem Reachable.givenUp_le {later : System} (reachable : Reachable cfg system)
    (reach : Reaches (System.step cfg) system later) :
    matchedCount OutboxEntry.isGivenUp system.store.outbox ≤
      matchedCount OutboxEntry.isGivenUp later.store.outbox := by
  have nodup : (system.store.outbox.filter OutboxEntry.isGivenUp).Nodup :=
    (List.Nodup.of_map _ reachable.coherent.entryIds).filter _
  have kept : system.store.outbox.filter OutboxEntry.isGivenUp ⊆
      later.store.outbox.filter OutboxEntry.isGivenUp := by
    intro entry member
    obtain ⟨stored, givenUp⟩ := List.mem_filter.mp member
    exact List.mem_filter.mpr
      ⟨reachable.permanentFailure reach stored (of_decide_eq_true givenUp), givenUp⟩
  simp only [matchedCount, List.countP_eq_length_filter]
  exact (nodup.subperm kept).length_le

/-- In every reachable state each entry ever created is open, was delivered or was given up. -/
theorem Flow.balance (flow : Flow system) : (createdEntries system.history).length =
    pendingOutboxCount system.store.outbox + timesDelivered system.history +
      matchedCount OutboxEntry.isGivenUp system.store.outbox := by
  rw [flow.created, flow.delivered, length_eq_open_add_closed]
  omega

/-- Between two polls the count of the backlog changes by the entries that callbacks have
created, less those delivered and those given up meanwhile, whatever the workers do and
however often entries are claimed, retried, abandoned or expire. -/
theorem backlog_count_balances {earlier later : BacklogReading cfg}
    (order : Reaches (System.step cfg) earlier.counted later.counted) :
    ∃ events givenUp, later.counted.history = events ++ earlier.counted.history ∧
      matchedCount OutboxEntry.isGivenUp later.counted.store.outbox =
        matchedCount OutboxEntry.isGivenUp earlier.counted.store.outbox + givenUp ∧
      later.metrics.count + timesDelivered events + givenUp =
        earlier.metrics.count + (createdEntries events).length := by
  obtain ⟨events, recorded⟩ := history_of_reaches order
  obtain ⟨givenUp, more⟩ := Nat.exists_eq_add_of_le (earlier.reachable.givenUp_le order)
  refine ⟨events, givenUp, recorded, more, ?_⟩
  have before := earlier.reachable.flow.balance
  have after := later.reachable.flow.balance
  rw [more, recorded, createdEntries_append, List.length_append, timesDelivered,
    List.countP_append] at after
  show pendingOutboxCount later.counted.store.outbox + timesDelivered events + givenUp =
    pendingOutboxCount earlier.counted.store.outbox + (createdEntries events).length
  simp only [timesDelivered] at before after ⊢
  omega

/-- One of two entries is sent and expires while the other is created: the count stays one. -/
theorem backlog_count_balances_sample :
    ∃ events givenUp, (System.after Sample.config Sample.twoFiles (by decide)).history =
        events ++ (System.after Sample.config (Sample.twoFiles.take 1) (by decide)).history ∧
      matchedCount OutboxEntry.isGivenUp
          (System.after Sample.config Sample.twoFiles (by decide)).store.outbox =
        matchedCount OutboxEntry.isGivenUp
          (System.after Sample.config (Sample.twoFiles.take 1) (by decide)).store.outbox +
            givenUp ∧
      (BacklogReading.atOnce (Reachable.after Sample.config Sample.twoFiles
          (by decide))).metrics.count + timesDelivered events + givenUp =
        (BacklogReading.atOnce (Reachable.after Sample.config (Sample.twoFiles.take 1)
          (by decide))).metrics.count + (createdEntries events).length :=
  @backlog_count_balances Sample.config
    (.atOnce (Reachable.after Sample.config (Sample.twoFiles.take 1) (by decide)))
    (.atOnce (Reachable.after Sample.config Sample.twoFiles (by decide)))
    (System.reaches_after (Sample.twoFiles.take 1) (Sample.twoFiles.drop 1) (by decide)
      (by decide))

/-- Once an entry was claimed for the last time and dropped by its owner, it is among the entries
every later poll counts, which reports at least its age, and that passes every threshold in
time. -/
theorem stranded_entry_raises_age (reachable : Reachable cfg system) {entry : OutboxEntry}
    (stored : entry ∈ system.store.outbox) (processing : entry.status = .processing)
    (spent : cfg.outboxMaxAttempts ≤ entry.attempts) {owner : WorkerId}
    (owned : entry.claimedBy = some owner)
    (dropped : ∀ snapshot ∈ (system.run owner).held, snapshot.id ≠ entry.id)
    (reading : BacklogReading cfg)
    (later : Reaches (System.step cfg) system reading.counted) :
    entry ∈ reading.counted.store.outbox.filter OutboxEntry.isOpen ∧
      reading.metrics.count =
        (reading.counted.store.outbox.filter OutboxEntry.isOpen).length ∧
      1 ≤ reading.metrics.count ∧
      (reading.now - entry.createdAt : Rat) / 1000 ≤ reading.age ∧
      ∀ threshold : Nat, entry.createdAt + 1000 * threshold ≤ reading.now →
        (threshold : Rat) ≤ reading.age := by
  have isOpen : entry.isOpen = true := by simp [OutboxEntry.isOpen, processing]
  have counted := reachable.stranded_forever stored processing spent owned dropped later
  have sorted := reachable.stranded_forever stored processing spent owned dropped
    (later.trans reading.inOrder)
  have aged := age_le_oldestPendingAgeSeconds sorted isOpen reading.now
  refine ⟨List.mem_filter.mpr ⟨counted, isOpen⟩, List.countP_eq_length_filter,
    List.countP_pos_iff.mpr ⟨entry, counted, isOpen⟩, aged, fun threshold passed => ?_⟩
  have elapsed : (entry.createdAt : Rat) + 1000 * threshold ≤ reading.now := by
    exact_mod_cast passed
  refine le_trans ?_ aged
  rw [le_div_iff₀ (by norm_num)]
  linarith

/-- After three crashes the one entry of the sample is fifteen minutes old. -/
theorem stranded_entry_raises_age_sample :
    ∃ entry ∈ (System.after Sample.config Sample.crashes (by decide)).store.outbox,
      1 ≤ (BacklogReading.atOnce (Reachable.after Sample.config Sample.crashes
          (by decide))).metrics.count ∧
        ((BacklogReading.atOnce (Reachable.after Sample.config Sample.crashes (by decide))).now -
            entry.createdAt : Rat) / 1000 ≤
          (BacklogReading.atOnce (Reachable.after Sample.config Sample.crashes
            (by decide))).age ∧
        ∀ threshold : Nat, entry.createdAt + 1000 * threshold ≤
            (BacklogReading.atOnce (Reachable.after Sample.config Sample.crashes
              (by decide))).now →
          (threshold : Rat) ≤ (BacklogReading.atOnce (Reachable.after Sample.config
            Sample.crashes (by decide))).age := by
  have claimed : ∃ entry ∈ (System.after Sample.config Sample.crashes (by decide)).store.outbox,
      entry.status = .processing ∧ Sample.config.outboxMaxAttempts ≤ entry.attempts ∧
        entry.claimedBy = some "third" := by decide
  have idle : ((System.after Sample.config Sample.crashes (by decide)).run "third").held = [] := by
    decide
  obtain ⟨entry, stored, processing, spent, owned⟩ := claimed
  exact ⟨entry, stored, (stranded_entry_raises_age
    (Reachable.after Sample.config Sample.crashes (by decide)) stored processing spent owned
    (by simp [idle]) _ (.refl _)).2.2⟩

end ObjectProcessor
