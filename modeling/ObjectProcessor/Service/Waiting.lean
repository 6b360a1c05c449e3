import ObjectProcessor.Service.Backlog
import ObjectProcessor.Service.Draining
import ObjectProcessor.Service.Settlement

/-!
# How long an entry waits

Every poll takes the oldest eligible entries first, so an entry waits only for entries that
were there before it, whatever callbacks bring in meanwhile.  Each poll in which nothing
goes wrong delivers the entry, or as many of those ahead of it as a poll may take.
-/

namespace ObjectProcessor

open Library

variable {cfg : Config} {system next last : System} {worker : WorkerId} {entry : OutboxEntry}
  {createdAt : Time}

/-- An entry a poll may take before one created at the given time, now or after its lease. -/
def isAhead (cfg : Config) (createdAt : Time) (entry : OutboxEntry) : Bool :=
  entry.isOpen && entry.attempts < cfg.outboxMaxAttempts && entry.createdAt ≤ createdAt

/-- How many entries are ahead of one created at the given time. -/
def aheadCount (cfg : Config) (createdAt : Time) (outbox : List OutboxEntry) : Nat :=
  matchedCount (isAhead cfg createdAt) outbox

theorem isAhead_iff : isAhead cfg createdAt entry = true ↔ entry.isOpen = true ∧
    entry.attempts < cfg.outboxMaxAttempts ∧ entry.createdAt ≤ createdAt := by
  simp [isAhead, and_assoc]

theorem isAhead_of_isProcessable {now : Time} (processable : isProcessable cfg now entry = true)
    (older : entry.createdAt ≤ createdAt) : isAhead cfg createdAt entry = true :=
  isAhead_iff.mpr ⟨isOpen_of_isProcessable processable, (isProcessable_iff.mp processable).1,
    older⟩

theorem isAhead_of_sent (sent : entry.status = .sent) : isAhead cfg createdAt entry = false := by
  simp [isAhead, OutboxEntry.isOpen, sent]

/-- What can be claimed stays so as time passes. -/
theorem isProcessable_mono {now later : Time} (past : now ≤ later)
    (processable : isProcessable cfg now entry = true) :
    isProcessable cfg later entry = true := by
  obtain ⟨allowed, due⟩ := isProcessable_iff.mp processable
  refine isProcessable_iff.mpr ⟨allowed, due.imp_right ?_⟩
  rintro ⟨processing, limit, leased, expired⟩
  exact ⟨processing, limit, leased, Nat.lt_of_lt_of_le expired past⟩

/-! ## Between two polls -/

/-- Anything but a claim may happen meanwhile.  A callback reads the clock after the given
time. -/
def Between (createdAt : Time) : Action → Prop
  | .claim _ _ => False
  | .callback env _ => createdAt < env.now
  | _ => True

/-- The entry of the identifier, created at the given time, can be claimed now. -/
def Waits (cfg : Config) (system : System) (id : ObjectId) (createdAt : Time) : Prop :=
  ∃ entry ∈ system.store.outbox, entry.id = id ∧ entry.createdAt = createdAt ∧
    isProcessable cfg system.clock entry = true

/-- The entry has been delivered. -/
def IsDelivered (system : System) (id : ObjectId) : Prop :=
  ∃ sender, .finalised sender id .succeeded ∈ system.history

theorem IsDelivered.of_reaches {id : ObjectId} (delivered : IsDelivered system id)
    (reach : Reaches (System.step cfg) system last) : IsDelivered last id := by
  obtain ⟨sender, recorded⟩ := delivered
  obtain ⟨events, grows⟩ := history_of_reaches reach
  exact ⟨sender, grows ▸ List.mem_append_right _ recorded⟩

/-- An entry in the outbox that is sent was delivered. -/
theorem Reachable.isDelivered (reachable : Reachable cfg system)
    (stored : entry ∈ system.store.outbox) (sent : entry.status = .sent) :
    IsDelivered system entry.id := by
  obtain ⟨sender, later, earlier, split, _⟩ := reachable.sentEarned entry stored sent
  exact ⟨sender, split ▸ List.mem_append_right _ (List.mem_cons_self ..)⟩

/-- A failed delivery with attempts left makes the entry due at once. -/
theorem isProcessable_of_failed {error : Option PublishError} {time now : Time}
    (allowed : entry.attempts < cfg.outboxMaxAttempts) :
    isProcessable cfg now (buildClaimedFailurePipeline cfg.outboxMaxAttempts error time entry) =
      true := by
  refine isProcessable_iff.mpr ⟨allowed, Or.inl ?_⟩
  simp [buildClaimedFailurePipeline, Nat.not_le.mpr allowed]

theorem EntryStep.createdAt_eq {action : Action} {before after : OutboxEntry}
    (change : EntryStep cfg system action next before after) :
    after.createdAt = before.createdAt := by
  cases change with
  | kept => rfl
  | claimed => rfl
  | finalised acts phase change recorded =>
      rename_i outcome
      obtain ⟨error, now, _, _, rfl⟩ := change
      cases outcome with
      | succeeded => rfl
      | failed => rfl

/-- No step puts an entry ahead that was not. -/
theorem EntryStep.isAhead_le {action : Action} {before after : OutboxEntry}
    (change : EntryStep cfg system action next before after)
    (ahead : isAhead cfg createdAt after = true) : isAhead cfg createdAt before = true := by
  obtain ⟨isOpen, allowed, older⟩ := isAhead_iff.mp ahead
  rw [change.createdAt_eq] at older
  have openBefore : before.isOpen = true := by
    by_contra closed
    rw [change.eq_of_closed (by simpa using closed)] at isOpen
    exact closed isOpen
  refine isAhead_iff.mpr ⟨openBefore, Nat.lt_of_le_of_lt ?_ allowed, older⟩
  cases change with
  | kept => exact Nat.le_refl _
  | claimed => exact Nat.le_succ _
  | finalised _ _ change _ =>
      obtain ⟨error, now, _, _, rfl⟩ := change
      exact Nat.le_of_eq (finalizeUpdate_attempts ..).symm

theorem aheadCount_between {action : Action} (coherent : Coherent system)
    (edge : Edge cfg system action next) (between : Between createdAt action) :
    aheadCount cfg createdAt next.store.outbox ≤ aheadCount cfg createdAt system.store.outbox := by
  obtain ⟨fate, remains, new, spec⟩ := outboxStep_of_edge coherent.entryIds edge
  have younger : new.countP (isAhead cfg createdAt) = 0 := by
    refine List.countP_eq_zero.mpr fun entry member ahead => ?_
    obtain ⟨env, body, document, rfl, same⟩ := spec.created entry member
    have created : entry.createdAt = env.now := by rw [same]; rfl
    exact Nat.not_lt.mpr (isAhead_iff.mp ahead).2.2 (created ▸ between)
  rw [aheadCount, aheadCount, matchedCount, matchedCount, spec.outbox_eq, List.countP_append,
    younger, Nat.add_zero, List.countP_map]
  calc List.countP (isAhead cfg createdAt ∘ fate) (system.store.outbox.filter remains)
      ≤ List.countP (isAhead cfg createdAt ∘ fate) system.store.outbox :=
        List.Sublist.countP_le List.filter_sublist
    _ ≤ List.countP (isAhead cfg createdAt) system.store.outbox :=
        List.countP_mono_left fun entry member ahead =>
          (spec.each entry member).isAhead_le ahead

/-- Between two polls a waiting entry goes on waiting, unless it is delivered meanwhile. -/
theorem waits_between {action : Action} (coherent : Coherent system)
    (edge : Edge cfg system action next) (between : Between createdAt action) {id : ObjectId}
    (waits : Waits cfg system id createdAt) :
    IsDelivered next id ∨ Waits cfg next id createdAt := by
  obtain ⟨entry, stored, rfl, created, processable⟩ := waits
  have isOpen := isOpen_of_isProcessable processable
  rcases edge.entry coherent.entryIds stored with ⟨after, member, change⟩ | ⟨sent, _⟩
  · have same := change.id_eq
    have createdSame := change.createdAt_eq.trans created
    cases change with
    | kept =>
        exact Or.inr ⟨entry, member, rfl, createdSame,
          isProcessable_mono edge.clock processable⟩
    | claimed acts =>
        subst acts
        exact between.elim
    | finalised acts phase change recorded =>
        rename_i outcome
        cases outcome with
        | succeeded => exact Or.inl ⟨_, recorded⟩
        | failed =>
            obtain ⟨error, now, _, _, rfl⟩ := change
            exact Or.inr ⟨_, member, same, createdSame,
              isProcessable_of_failed (isProcessable_iff.mp processable).1⟩
  · simp [OutboxEntry.isOpen, sent] at isOpen

/-! ## Polls -/

/-- One worker polls, as the environments say, and between its polls other things happen. -/
inductive Serves (cfg : Config) (worker : WorkerId) (createdAt : Time) :
    List PollEnv → System → System → Prop where
  | done (system : System) : Serves cfg worker createdAt [] system system
  | between {polls : List PollEnv} {action : Action} {system next last : System}
      (quiet : Between createdAt action) (accepted : system.step cfg action = some next)
      (rest : Serves cfg worker createdAt polls next last) :
      Serves cfg worker createdAt polls system last
  | poll {env : PollEnv} {polls : List PollEnv} {system next last : System}
      (now : env.now = system.clock)
      (refined : Refined cfg worker (publishPendingMessages cfg worker env system.store.outbox
        system.store.metadata) system next)
      (rest : Serves cfg worker createdAt polls next last) :
      Serves cfg worker createdAt (env :: polls) system last

theorem Serves.reaches {polls : List PollEnv}
    (serves : Serves cfg worker createdAt polls system last) :
    Reaches (System.step cfg) system last := by
  induction serves with
  | done system => exact .refl system
  | between _ accepted _ ih => exact (Reaches.single accepted).trans ih
  | poll _ refined _ ih => exact refined.reach.trans ih

/-- The entries of a reachable outbox are named apart. -/
theorem Reachable.named (reachable : Reachable cfg system) :
    UniqueBy getEntryId system.store.outbox := by
  have agreement := reachable.agreement.2
  refine List.Nodup.map_on (fun left isLeft right isRight same => ?_)
    (List.Nodup.of_map _ reachable.coherent.entryIds)
  rw [getEntryId_of_truthy (agreement.truthyFiles left isLeft),
    getEntryId_of_truthy (agreement.truthyFiles right isRight)] at same
  exact agreement.entryFiles.eq_of_key isLeft isRight (EntryId.file.inj same)

/-- An eligible entry that a poll leaves has as many taken before it as the poll may take. -/
theorem Claimed.length_eq {now : Time} {outbox taken claimed : List OutboxEntry}
    (drained : Claimed cfg worker now outbox taken claimed) (stored : entry ∈ outbox)
    (processable : isProcessable cfg now entry = true)
    (left : entry.id ∉ taken.map OutboxEntry.id) : taken.length = cfg.outboxQueryLimit := by
  have nodup : (entry :: taken).Nodup := by
    refine List.nodup_cons.mpr ⟨fun member => ?_, List.Nodup.of_map _ drained.distinct⟩
    exact left (List.mem_map_of_mem member)
  have subset : entry :: taken ⊆ outbox.filter (isProcessable cfg now) := by
    refine List.cons_subset.mpr ⟨List.mem_filter.mpr ⟨stored, processable⟩, fun other member => ?_⟩
    exact List.mem_filter.mpr (drained.matched other member)
  have more : taken.length + 1 ≤ matchedCount (isProcessable cfg now) outbox := by
    rw [matchedCount, List.countP_eq_length_filter]
    exact (nodup.subperm subset).length_le
  have count := drained.count
  omega

/-- A poll that leaves an eligible entry takes as many entries from those ahead of it. -/
theorem aheadCount_poll {now : Time} {outbox taken claimed after : List OutboxEntry}
    {fate : OutboxEntry → OutboxEntry} (unique : UniqueBy OutboxEntry.id outbox)
    (drained : Claimed cfg worker now outbox taken claimed)
    (sends : Sends taken outbox after fate) (stored : entry ∈ outbox)
    (processable : isProcessable cfg now entry = true)
    (left : entry.id ∉ taken.map OutboxEntry.id) :
    aheadCount cfg entry.createdAt after + cfg.outboxQueryLimit =
      aheadCount cfg entry.createdAt outbox := by
  refine (congrArg (_ + ·) (drained.length_eq stored processable left).symm).trans ?_
  rw [aheadCount, sends.outbox]
  refine matchedCount_map_of_cleared unique drained.distinct
    (fun found inTaken => List.mem_map_of_mem (drained.matched found inTaken).1) ?_ ?_
  · intro other member isTaken
    refine ⟨?_, isAhead_of_sent (sends.sent other member isTaken)⟩
    obtain ⟨found, inTaken, same⟩ := List.mem_map.mp isTaken
    have equal := unique.eq_of_key (drained.matched found inTaken).1 member same
    subst equal
    exact isAhead_of_isProcessable (drained.matched found inTaken).2
      (drained.least found inTaken entry stored processable left)
  · intro other member untaken
    rw [sends.kept other member untaken]

theorem clock_of_reaches (reach : Reaches (System.step cfg) system last) :
    system.clock ≤ last.clock := by
  refine reach.induction (motive := fun last => system.clock ≤ last.clock) (Nat.le_refl _) ?_
  intro middle action after _ past accepted
  exact past.trans (edge_of_step accepted).clock

/-- A poll delivers a waiting entry, or brings it forward by as many entries as it may take. -/
theorem waits_poll (reachable : Reachable cfg system) {env : PollEnv} (healthy : Healthy cfg env)
    (now : env.now = system.clock)
    (refined : Refined cfg worker (publishPendingMessages cfg worker env system.store.outbox
      system.store.metadata) system next) {id : ObjectId}
    (waits : Waits cfg system id createdAt) :
    IsDelivered next id ∨ Waits cfg next id createdAt ∧
      aheadCount cfg createdAt next.store.outbox + cfg.outboxQueryLimit =
        aheadCount cfg createdAt system.store.outbox := by
  obtain ⟨entry, stored, rfl, rfl, processable⟩ := waits
  have unique := reachable.coherent.entryIds
  obtain ⟨taken, claimed, fate, drained, sends⟩ := publishPendingMessages_sends worker healthy
    system.store.metadata unique reachable.named
  have outbox : next.store.outbox =
      (publishPendingMessages cfg worker env system.store.outbox system.store.metadata).outbox := by
    rw [refined.store]
  rw [← outbox] at sends
  have after : fate entry ∈ next.store.outbox := sends.outbox ▸ List.mem_map_of_mem stored
  by_cases isTaken : entry.id ∈ taken.map OutboxEntry.id
  · refine Or.inl ?_
    rw [← sends.named entry stored]
    exact (reachable.reaches refined.reach).isDelivered after (sends.sent entry stored isTaken)
  · rw [sends.kept entry stored isTaken] at after
    rw [now] at drained
    refine Or.inr ⟨⟨entry, after, rfl, rfl, ?_⟩,
      aheadCount_poll unique drained sends stored processable isTaken⟩
    exact isProcessable_mono (clock_of_reaches refined.reach) processable

/-- An entry is delivered by so many polls in which nothing goes wrong as take all entries that
were there before it, whatever else callbacks bring in meanwhile. -/
theorem delivered_within_polls (reachable : Reachable cfg system) {polls : List PollEnv}
    (serves : Serves cfg worker createdAt polls system last)
    (healthy : ∀ env ∈ polls, Healthy cfg env) {id : ObjectId}
    (waits : Waits cfg system id createdAt)
    (enough : aheadCount cfg createdAt system.store.outbox ≤
      polls.length * cfg.outboxQueryLimit) : IsDelivered last id := by
  induction serves with
  | done system =>
      -- The entry itself is one of those ahead.
      exfalso
      obtain ⟨entry, stored, rfl, rfl, processable⟩ := waits
      rw [List.length_nil, Nat.zero_mul, Nat.le_zero, aheadCount, matchedCount,
        List.countP_eq_zero] at enough
      exact enough entry stored (isAhead_of_isProcessable processable (Nat.le_refl _))
  | between quiet accepted rest ih =>
      have edge := edge_of_step accepted
      rcases waits_between reachable.coherent edge quiet waits with delivered | waitsOn
      · exact delivered.of_reaches rest.reaches
      · exact ih (reachable.reaches (Reaches.single accepted)) healthy waitsOn
          ((aheadCount_between reachable.coherent edge quiet).trans enough)
  | poll now refined rest ih =>
      rcases waits_poll reachable (healthy _ (List.mem_cons_self ..)) now refined waits with
        delivered | ⟨waitsOn, forward⟩
      · exact delivered.of_reaches rest.reaches
      · refine ih (reachable.reaches refined.reach)
          (fun env member => healthy env (List.mem_cons_of_mem _ member)) waitsOn ?_
        rw [← forward, List.length_cons, Nat.add_mul, Nat.one_mul] at enough
        exact Nat.le_of_add_le_add_right enough

/-- In a poll of the sample nothing goes wrong. -/
theorem Sample.healthy_pollAt (time : Time) : Healthy Sample.config (Sample.pollAt time) where
  starts := rfl
  claims := rfl
  accepts _ _ := rfl
  commits _ := rfl
  inTime _ _ := Nat.lt_add_of_pos_right (by decide)

/-- The two entries of the sample are ahead of each other, and one poll delivers both. -/
theorem delivered_within_polls_sample :
    ∃ last, Serves Sample.config "worker" 0 [Sample.pollAt 0]
        (System.after Sample.config Sample.pendingUpload (by decide)) last ∧
      (System.after Sample.config Sample.pendingUpload (by decide)).store.outbox.length = 2 ∧
      ∀ entry ∈ (System.after Sample.config Sample.pendingUpload (by decide)).store.outbox,
        IsDelivered last entry.id := by
  have reachable := Reachable.after Sample.config Sample.pendingUpload (by decide)
  have idle : (System.after Sample.config Sample.pendingUpload (by decide)).run "worker" = .idle :=
    rfl
  obtain ⟨last, refined⟩ := processPendingMessages_refines reachable idle rfl
    (Sample.timely_pollAt 0)
  have serves : Serves Sample.config "worker" 0 [Sample.pollAt 0]
      (System.after Sample.config Sample.pendingUpload (by decide)) last :=
    .poll rfl (refined.of_starts rfl) (.done last)
  refine ⟨last, serves, by decide, fun entry stored => ?_⟩
  have due : ∀ entry ∈ (System.after Sample.config Sample.pendingUpload
      (by decide)).store.outbox, entry.createdAt = 0 ∧
        isProcessable Sample.config 0 entry = true := by decide
  obtain ⟨created, processable⟩ := due entry stored
  refine delivered_within_polls reachable serves ?_ ⟨entry, stored, rfl, created, processable⟩
    (by decide)
  simpa using Sample.healthy_pollAt 0

end ObjectProcessor
