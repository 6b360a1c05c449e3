import Mathlib.Logic.Function.Basic
import ObjectProcessor.Callback.Handler
import ObjectProcessor.Library.Catalog

/-!
# The indexes of the database

At startup the service creates the indexes it needs.  The TTL index of the outbox may
be there with another definition: it is then dropped, or its retention is changed in place.
Only a part of its definition is compared for this, and what was not compared is met again
when the indexes are created.
-/

namespace ObjectProcessor

open Library

/-- The definition of an index, as it is created and as it is listed. -/
structure Index where
  name : String
  key : Json
  unique : Bool := false
  sparse : Bool := false
  expireAfterSeconds : Option Json := none
  partialFilterExpression : Option Json := none
  deriving DecidableEq

/-- The index with this `expireAfterSeconds`. -/
def Index.expiring (seconds : Json) (index : Index) : Index :=
  { index with expireAfterSeconds := some seconds }

@[simp] theorem Index.expiring_name (seconds : Json) (index : Index) :
    (index.expiring seconds).name = index.name :=
  rfl

structure MongoError where
  code : Nat
  deriving DecidableEq

namespace MongoError

def namespaceNotFound : MongoError := ⟨26⟩

def indexNotFound : MongoError := ⟨27⟩

def indexKeySpecsConflict : MongoError := ⟨86⟩

end MongoError

/-- The indexes of a collection, or nothing when it has not been created yet. -/
abbrev Collection := Option (Catalog Index.name)

namespace Collection

def indexes : Collection → Except MongoError (List Index)
  | none => .error .namespaceNotFound
  | some catalog => .ok catalog.defs

/-- All of the indexes are created, or none of them: one that is there already is left, and
another index of the same name is a conflict. -/
def createIndexes (wanted : List Index) (collection : Collection) :
    Except MongoError Collection :=
  match (collection.getD .empty).ensureAll wanted with
  | some catalog => .ok (some catalog)
  | none => .error .indexKeySpecsConflict

def dropIndex (name : String) : Collection → Except MongoError Collection
  | none => .error .namespaceNotFound
  | some catalog =>
      match catalog.lookup name with
      | none => .error .indexNotFound
      | some _ => .ok (some (catalog.drop name))

/-- `collMod` changes `expireAfterSeconds`, and nothing else of an index. -/
def collMod (name : String) (expireAfterSeconds : Json) : Collection → Except MongoError Collection
  | none => .error .namespaceNotFound
  | some catalog =>
      match catalog.lookup name with
      | none => .error .indexNotFound
      | some _ =>
          .ok (some (catalog.alter name (Index.expiring expireAfterSeconds)
            (Index.expiring_name expireAfterSeconds)))

/-- The index of a name. -/
def index? (collection : Collection) (name : String) : Option Index :=
  (collection.getD .empty).lookup name

/-- No other index has the name of a wanted one. -/
def Agrees (collection : Collection) (wanted : List Index) : Prop :=
  ∀ definition ∈ wanted, ∀ index, collection.index? definition.name = some index →
    index = definition

/-- Every wanted index is there. -/
def Holds (collection : Collection) (wanted : List Index) : Prop :=
  ∀ definition ∈ wanted, collection.index? definition.name = some definition

end Collection

/-- The collections of the configuration. -/
inductive CollectionName where
  | status
  | uploadMetadata
  | sessions
  | outbox
  deriving DecidableEq

/-- The indexes of every collection. -/
abbrev Database := CollectionName → Collection

/-- A command on a collection.  One that is refused leaves the database as it is. -/
def onCollection (name : CollectionName) (command : Collection → Except MongoError Collection) :
    EStateM MongoError Database Unit := fun db =>
  match command (db name) with
  | .ok collection => .ok () (Function.update db name collection)
  | .error error => .error error db

/-- `collection.indexes()`, and no index when the collection has not been created yet. -/
def existingIndexes (name : CollectionName) : EStateM MongoError Database (List Index) := fun db =>
  match (db name).indexes with
  | .ok indexes => .ok indexes db
  | .error error => if error.code = 26 then .ok [] db else .error error db

/-- Ascending keys. -/
def ascending (fields : List String) : Json :=
  .obj (fields.map fun field => (field, .int 1))

def SENT : String := "SENT"

def OUTBOX_SENT_TTL_INDEX_NAME : String := "outbox_sent_ttl_idx"

def statusIndexes : List Index :=
  [ { name := "status_correlationId_timestamp_idx",
      key := ascending ["correlationId", "timestamp"] },
    { name := "status_sbi_idx", key := ascending ["sbi"] },
    { name := "status_timestamp_idx", key := .obj [("timestamp", .int (-1))] },
    { name := "status_sbi_timestamp_idx",
      key := .obj [("sbi", .int 1), ("timestamp", .int (-1))] } ]

def uploadMetadataIndexes : List Index :=
  [ { name := "metadata_fileId_idx", key := ascending ["file.fileId"], unique := true },
    { name := "metadata_sbi_idx", key := ascending ["metadata.sbi"] },
    { name := "metadata_sbi_id_idx", key := .obj [("metadata.sbi", .int 1), ("_id", .int (-1))] } ]

def sessionsIndexes : List Index :=
  [ { name := "sessions_uploadId_idx", key := ascending ["uploadId"], unique := true },
    { name := "sessions_journeyId_idx", key := ascending ["journeyId"], unique := true,
      sparse := true },
    { name := "sessions_timestamp_idx", key := .obj [("timestamp", .int (-1))] } ]

section Outbox

variable (cfg : Config)

/-- Only sent entries expire. -/
def outboxSentTtlIndex : Index where
  name := OUTBOX_SENT_TTL_INDEX_NAME
  key := ascending ["lastAttemptedAt"]
  expireAfterSeconds := some (.int cfg.outboxSentTtlSeconds)
  partialFilterExpression := some (.obj [("status", .str SENT)])

def outboxIndexes : List Index :=
  [ { name := "outbox_status_createdAt_idx", key := ascending ["status", "createdAt"] },
    { name := "outbox_status_claimedUntil_idx", key := ascending ["status", "claimedUntil"] },
    { name := "outbox_status_attempts_idx", key := ascending ["status", "attempts"] },
    { name := "outbox_payload_fileId_idx", key := ascending ["payload.file.fileId"] },
    outboxSentTtlIndex cfg ]

/-- What is compared of an existing TTL index. -/
def specMatches (index : Index) : Bool :=
  index.key.get? "lastAttemptedAt" = some (.int 1) &&
    (index.partialFilterExpression.bind fun filter => filter.get? "status") = some (.str SENT) &&
    match index.expireAfterSeconds with
    | some (.num _) => true
    | _ => false

/-- The TTL index of the outbox is dropped, or its retention is changed, or it is left. -/
def reconcileSentTtlIndex : EStateM MongoError Database Unit := do
  let existingOutboxIndexes ← existingIndexes .outbox
  match existingOutboxIndexes.find? fun index => index.name = OUTBOX_SENT_TTL_INDEX_NAME with
  | none => pure ()
  | some index =>
      if ¬ specMatches index then
        onCollection .outbox (Collection.dropIndex OUTBOX_SENT_TTL_INDEX_NAME)
      else if index.expireAfterSeconds ≠ some (.int cfg.outboxSentTtlSeconds) then
        onCollection .outbox
          (Collection.collMod OUTBOX_SENT_TTL_INDEX_NAME (.int cfg.outboxSentTtlSeconds))
      else pure ()

def createIndexes : EStateM MongoError Database Unit := do
  onCollection .status (Collection.createIndexes statusIndexes)
  onCollection .uploadMetadata (Collection.createIndexes uploadMetadataIndexes)
  onCollection .sessions (Collection.createIndexes sessionsIndexes)
  reconcileSentTtlIndex cfg
  onCollection .outbox (Collection.createIndexes (outboxIndexes cfg))

/-- The indexes a collection is to have. -/
def wantedIndexes : CollectionName → List Index
  | .status => statusIndexes
  | .uploadMetadata => uploadMetadataIndexes
  | .sessions => sessionsIndexes
  | .outbox => outboxIndexes cfg

/-- No index but the TTL index has the name of a wanted one and another definition. -/
def OthersAgree (db : Database) : Prop :=
  ∀ name, (db name).Agrees
    ((wantedIndexes cfg name).filter fun wanted => wanted.name ≠ OUTBOX_SENT_TTL_INDEX_NAME)

def Settled (db : Database) : Prop :=
  ∀ name, (db name).Holds (wantedIndexes cfg name)

end Outbox

section Commands

theorem bind_eq_ok_iff {Error State Value Result : Type} {first : EStateM Error State Value}
    {next : Value → EStateM Error State Result} {before after : State} {result : Result} :
    (first >>= next).run before = .ok result after ↔
      ∃ value middle, first.run before = .ok value middle ∧
        (next value).run middle = .ok result after := by
  simp only [bind, EStateM.run, EStateM.bind]
  cases first before with
  | ok value middle => simp
  | error error middle => simp

theorem run_bind_of_ok {Error State Value Result : Type} {first : EStateM Error State Value}
    {next : Value → EStateM Error State Result} {before middle : State} {value : Value}
    (done : first.run before = .ok value middle) :
    (first >>= next).run before = (next value).run middle := by
  simp only [EStateM.run] at done
  simp only [bind, EStateM.run, EStateM.bind, done]

theorem onCollection_eq_ok_iff {name : CollectionName}
    {command : Collection → Except MongoError Collection} {db after : Database} :
    (onCollection name command).run db = .ok () after ↔
      ∃ collection, command (db name) = .ok collection ∧
        Function.update db name collection = after := by
  simp only [EStateM.run, onCollection]
  cases command (db name) with
  | ok collection => simp
  | error error => simp

theorem existingIndexes_run (name : CollectionName) (db : Database) :
    (existingIndexes name).run db = .ok ((db name).getD .empty).defs db := by
  simp only [EStateM.run, existingIndexes]
  cases db name with
  | none => rfl
  | some catalog => rfl

theorem dropIndex_eq {collection : Collection} {name : String} {index : Index}
    (found : collection.index? name = some index) :
    ∃ after, collection.dropIndex name = .ok after ∧
      ∀ other, after.index? other = if other = name then none else collection.index? other := by
  cases collection with
  | none => simp [Collection.index?] at found
  | some catalog =>
      have stored : catalog.lookup name = some index := found
      exact ⟨some (catalog.drop name), by simp only [Collection.dropIndex, stored],
        catalog.lookup_drop name⟩

theorem collMod_eq {collection : Collection} {name : String} {index : Index}
    (found : collection.index? name = some index) (expireAfterSeconds : Json) :
    ∃ after, collection.collMod name expireAfterSeconds = .ok after ∧
      ∀ other, after.index? other =
        if other = name then (collection.index? other).map (Index.expiring expireAfterSeconds)
        else collection.index? other := by
  cases collection with
  | none => simp [Collection.index?] at found
  | some catalog =>
      have stored : catalog.lookup name = some index := found
      refine ⟨some (catalog.alter name (Index.expiring expireAfterSeconds)
        (Index.expiring_name expireAfterSeconds)), by simp only [Collection.collMod, stored], ?_⟩
      exact catalog.lookup_alter name (Index.expiring_name expireAfterSeconds)

variable {name : CollectionName} {wanted : List Index} {db after : Database}

/-- The indexes could be created: they are there, and no other index was in their way. -/
theorem created (distinct : UniqueBy Index.name wanted)
    (done : (onCollection name (Collection.createIndexes wanted)).run db = .ok () after) :
    (db name).Agrees wanted ∧ (after name).Holds wanted ∧
      ∀ other, other ≠ name → after other = db other := by
  obtain ⟨collection, command, rfl⟩ := onCollection_eq_ok_iff.mp done
  rw [Collection.createIndexes] at command
  cases ensured : ((db name).getD .empty).ensureAll wanted with
  | none => simp [ensured] at command
  | some catalog =>
      rw [ensured] at command
      cases command
      obtain ⟨agrees, present, -⟩ := Catalog.ensureAll_eq_some distinct ensured
      refine ⟨agrees, ?_, fun other different => Function.update_of_ne different ..⟩
      rw [Function.update_self]
      exact present

theorem create_of_agrees (distinct : UniqueBy Index.name wanted)
    (agrees : (db name).Agrees wanted) :
    ∃ after, (onCollection name (Collection.createIndexes wanted)).run db = .ok () after ∧
      ∀ other, other ≠ name → after other = db other := by
  obtain ⟨catalog, ensured⟩ := Catalog.ensureAll_of_agrees distinct agrees
  refine ⟨_, onCollection_eq_ok_iff.mpr ⟨some catalog, ?_, rfl⟩,
    fun other different => Function.update_of_ne different ..⟩
  rw [Collection.createIndexes, ensured]

/-- Indexes that are there are left. -/
theorem create_of_holds (nonempty : wanted ≠ []) (holds : (db name).Holds wanted) :
    (onCollection name (Collection.createIndexes wanted)).run db = .ok () db := by
  cases stored : db name with
  | none =>
      obtain ⟨definition, member⟩ := List.exists_mem_of_ne_nil wanted nonempty
      have found := holds definition member
      simp [stored, Collection.index?] at found
  | some catalog =>
      refine onCollection_eq_ok_iff.mpr ⟨db name, ?_, Function.update_eq_self ..⟩
      rw [stored] at holds
      have ensured : catalog.ensureAll wanted = some catalog := Catalog.ensureAll_of_present holds
      simp only [Collection.createIndexes, stored, Option.getD_some, ensured]

end Commands

section Reconciliation

variable (cfg : Config)

theorem specMatches_outboxSentTtlIndex : specMatches (outboxSentTtlIndex cfg) = true := by
  simp [specMatches, outboxSentTtlIndex, ascending, Json.get?, Json.int]

theorem distinct_wantedIndexes (name : CollectionName) :
    UniqueBy Index.name (wantedIndexes cfg name) := by
  cases name <;>
    simp [UniqueBy, wantedIndexes, statusIndexes, uploadMetadataIndexes, sessionsIndexes,
      outboxIndexes, outboxSentTtlIndex, OUTBOX_SENT_TTL_INDEX_NAME]

theorem outboxSentTtlIndex_wanted : outboxSentTtlIndex cfg ∈ wantedIndexes cfg .outbox := by
  simp [wantedIndexes, outboxIndexes]

/-- No other wanted index has the name of the TTL index. -/
theorem wanted_ttl {name : CollectionName} {wanted : Index}
    (member : wanted ∈ wantedIndexes cfg name)
    (named : wanted.name = OUTBOX_SENT_TTL_INDEX_NAME) :
    name = .outbox ∧ wanted = outboxSentTtlIndex cfg := by
  cases name with
  | status =>
      have names : ∀ index ∈ statusIndexes, index.name ≠ OUTBOX_SENT_TTL_INDEX_NAME := by decide
      exact absurd named (names wanted member)
  | uploadMetadata =>
      have names : ∀ index ∈ uploadMetadataIndexes, index.name ≠ OUTBOX_SENT_TTL_INDEX_NAME := by
        decide
      exact absurd named (names wanted member)
  | sessions =>
      have names : ∀ index ∈ sessionsIndexes, index.name ≠ OUTBOX_SENT_TTL_INDEX_NAME := by decide
      exact absurd named (names wanted member)
  | outbox =>
      exact ⟨rfl, (distinct_wantedIndexes cfg .outbox).eq_of_key member
        (outboxSentTtlIndex_wanted cfg) named⟩

theorem wantedIndexes_ne_nil (name : CollectionName) : wantedIndexes cfg name ≠ [] := by
  cases name <;>
    simp [wantedIndexes, statusIndexes, uploadMetadataIndexes, sessionsIndexes, outboxIndexes]

/-- What the reconciliation leaves: the TTL index with the configured retention, or no TTL index,
and all of the other indexes. -/
structure Reconciled (before after : Collection) : Prop where
  others : ∀ name, name ≠ OUTBOX_SENT_TTL_INDEX_NAME → after.index? name = before.index? name
  ttl : after.index? OUTBOX_SENT_TTL_INDEX_NAME =
    (before.index? OUTBOX_SENT_TTL_INDEX_NAME).bind fun index =>
      if specMatches index then some (index.expiring (.int cfg.outboxSentTtlSeconds)) else none

theorem reconcileSentTtlIndex_run (db : Database) :
    ∃ outbox, (reconcileSentTtlIndex cfg).run db =
        .ok () (Function.update db .outbox outbox) ∧
      Reconciled cfg (db .outbox) outbox := by
  rw [reconcileSentTtlIndex, run_bind_of_ok (existingIndexes_run .outbox db)]
  cases found : (db .outbox).index? OUTBOX_SENT_TTL_INDEX_NAME with
  | none =>
      have listed : ((db .outbox).getD .empty).defs.find?
          (fun index => decide (index.name = OUTBOX_SENT_TTL_INDEX_NAME)) = none := found
      refine ⟨db .outbox, ?_, fun _ _ => rfl, by rw [found]; rfl⟩
      rw [listed, Function.update_eq_self]
      rfl
  | some index =>
      have listed : ((db .outbox).getD .empty).defs.find?
          (fun index => decide (index.name = OUTBOX_SENT_TTL_INDEX_NAME)) = some index := found
      rw [listed]
      by_cases same : specMatches index = true
      · simp only [same, not_true, ↓reduceIte]
        by_cases differs : index.expireAfterSeconds ≠ some (.int cfg.outboxSentTtlSeconds)
        · obtain ⟨after, command, lookup⟩ := collMod_eq found (.int cfg.outboxSentTtlSeconds)
          rw [if_pos differs]
          refine ⟨after, onCollection_eq_ok_iff.mpr ⟨after, command, rfl⟩, ?_, ?_⟩
          · intro other different
            rw [lookup, if_neg different]
          · simp [lookup, found, same]
        · have kept : index.expiring (.int cfg.outboxSentTtlSeconds) = index := by
            rw [Index.expiring, ← not_not.mp differs]
          rw [if_neg differs]
          refine ⟨db .outbox, ?_, fun _ _ => rfl, by simp [found, same, kept]⟩
          rw [Function.update_eq_self]
          rfl
      · obtain ⟨after, command, lookup⟩ := dropIndex_eq found
        simp only [same]
        refine ⟨after, onCollection_eq_ok_iff.mpr ⟨after, command, rfl⟩, ?_, ?_⟩
        · intro other different
          rw [lookup, if_neg different]
        · simp [lookup, found, same]

/-- A run that ends has met no other definition, and has created every wanted index. -/
theorem createIndexes_eq_ok {db after : Database}
    (done : (createIndexes cfg).run db = .ok () after) :
    Settled cfg after ∧
      ∃ outbox, Reconciled cfg (db .outbox) outbox ∧ outbox.Agrees (outboxIndexes cfg) := by
  obtain ⟨⟨⟩, status, first, done⟩ := bind_eq_ok_iff.mp done
  obtain ⟨⟨⟩, metadata, second, done⟩ := bind_eq_ok_iff.mp done
  obtain ⟨⟨⟩, sessions, third, done⟩ := bind_eq_ok_iff.mp done
  obtain ⟨⟨⟩, middle, fourth, last⟩ := bind_eq_ok_iff.mp done
  obtain ⟨-, statusHolds, statusKept⟩ := created (distinct_wantedIndexes cfg .status) first
  obtain ⟨-, metadataHolds, metadataKept⟩ :=
    created (distinct_wantedIndexes cfg .uploadMetadata) second
  obtain ⟨-, sessionsHolds, sessionsKept⟩ := created (distinct_wantedIndexes cfg .sessions) third
  obtain ⟨outbox, run, reconciled⟩ := reconcileSentTtlIndex_run cfg sessions
  cases run.symm.trans fourth
  obtain ⟨agrees, outboxHolds, outboxKept⟩ := created (distinct_wantedIndexes cfg .outbox) last
  rw [Function.update_self] at agrees
  rw [sessionsKept _ (by decide), metadataKept _ (by decide),
    statusKept _ (by decide)] at reconciled
  refine ⟨fun name => ?_, outbox, reconciled, agrees⟩
  cases name with
  | status =>
      rwa [outboxKept _ (by decide), Function.update_of_ne (by decide),
        sessionsKept _ (by decide), metadataKept _ (by decide)]
  | uploadMetadata =>
      rwa [outboxKept _ (by decide), Function.update_of_ne (by decide),
        sessionsKept _ (by decide)]
  | sessions => rwa [outboxKept _ (by decide), Function.update_of_ne (by decide)]
  | outbox => exact outboxHolds

theorem createIndexes_of_agrees {db : Database}
    (others : ∀ name, name ≠ .outbox → (db name).Agrees (wantedIndexes cfg name))
    (agrees : ∀ outbox, Reconciled cfg (db .outbox) outbox → outbox.Agrees (outboxIndexes cfg)) :
    ∃ after, (createIndexes cfg).run db = .ok () after := by
  have distinct := distinct_wantedIndexes cfg
  obtain ⟨status, first, statusKept⟩ :=
    create_of_agrees (distinct .status) (others .status (by decide))
  have metadataAgrees : (status .uploadMetadata).Agrees (wantedIndexes cfg .uploadMetadata) := by
    rw [statusKept _ (by decide)]
    exact others _ (by decide)
  obtain ⟨metadata, second, metadataKept⟩ :=
    create_of_agrees (distinct .uploadMetadata) metadataAgrees
  have sessionsAgrees : (metadata .sessions).Agrees (wantedIndexes cfg .sessions) := by
    rw [metadataKept _ (by decide), statusKept _ (by decide)]
    exact others _ (by decide)
  obtain ⟨sessions, third, sessionsKept⟩ := create_of_agrees (distinct .sessions) sessionsAgrees
  have outboxKept : sessions .outbox = db .outbox := by
    rw [sessionsKept _ (by decide), metadataKept _ (by decide), statusKept _ (by decide)]
  obtain ⟨outbox, fourth, reconciled⟩ := reconcileSentTtlIndex_run cfg sessions
  have outboxAgrees : (Function.update sessions .outbox outbox .outbox).Agrees
      (wantedIndexes cfg .outbox) := by
    rw [Function.update_self]
    exact agrees outbox (outboxKept ▸ reconciled)
  obtain ⟨after, last, -⟩ := create_of_agrees (distinct .outbox) outboxAgrees
  refine ⟨after, bind_eq_ok_iff.mpr ⟨(), status, first, ?_⟩⟩
  refine bind_eq_ok_iff.mpr ⟨(), metadata, second, ?_⟩
  refine bind_eq_ok_iff.mpr ⟨(), sessions, third, ?_⟩
  exact bind_eq_ok_iff.mpr ⟨(), _, fourth, last⟩

/-- A run on what it wants changes nothing. -/
theorem createIndexes_of_settled {db : Database} (settled : Settled cfg db) :
    (createIndexes cfg).run db = .ok () db := by
  have left : ∀ name, (onCollection name
      (Collection.createIndexes (wantedIndexes cfg name))).run db = .ok () db :=
    fun name => create_of_holds (wantedIndexes_ne_nil cfg name) (settled name)
  have listed : ((db .outbox).getD .empty).defs.find?
      (fun index => decide (index.name = OUTBOX_SENT_TTL_INDEX_NAME)) =
        some (outboxSentTtlIndex cfg) :=
    settled .outbox _ (outboxSentTtlIndex_wanted cfg)
  have reconciled : (reconcileSentTtlIndex cfg).run db = .ok () db := by
    rw [reconcileSentTtlIndex, run_bind_of_ok (existingIndexes_run .outbox db), listed]
    simp only [specMatches_outboxSentTtlIndex, not_true, ↓reduceIte]
    rw [if_neg fun differs => differs rfl]
    rfl
  refine bind_eq_ok_iff.mpr ⟨(), db, left .status, ?_⟩
  refine bind_eq_ok_iff.mpr ⟨(), db, left .uploadMetadata, ?_⟩
  refine bind_eq_ok_iff.mpr ⟨(), db, left .sessions, ?_⟩
  exact bind_eq_ok_iff.mpr ⟨(), db, reconciled, left .outbox⟩

/-- Startup leaves the wanted TTL index, and a second startup changes nothing. -/
def Converges (db : Database) : Prop :=
  ∃ after, (createIndexes cfg).run db = .ok () after ∧
    (after .outbox).index? OUTBOX_SENT_TTL_INDEX_NAME = some (outboxSentTtlIndex cfg) ∧
    (createIndexes cfg).run after = .ok () after

theorem converges_iff_createIndexes {db : Database} :
    Converges cfg db ↔ ∃ after, (createIndexes cfg).run db = .ok () after := by
  constructor
  · rintro ⟨after, done, -⟩
    exact ⟨after, done⟩
  · rintro ⟨after, done⟩
    have settled := (createIndexes_eq_ok cfg done).1
    exact ⟨after, done, settled .outbox _ (outboxSentTtlIndex_wanted cfg),
      createIndexes_of_settled cfg settled⟩

/-- An index the comparison admits: its key has `lastAttemptedAt` ascending, its filter asks for
sent entries, and its retention is a number, whatever else they may hold. -/
structure PassesComparison (index : Index) : Prop where
  key : index.key.get? "lastAttemptedAt" = some (.int 1)
  filter : ∃ filter, index.partialFilterExpression = some filter ∧
    filter.get? "status" = some (.str SENT)
  retention : ∃ seconds, index.expireAfterSeconds = some (.num seconds)

theorem specMatches_iff {index : Index} : specMatches index = true ↔ PassesComparison index := by
  have retention : (match index.expireAfterSeconds with
      | some (.num _) => true
      | _ => false) = true ↔ ∃ seconds, index.expireAfterSeconds = some (.num seconds) := by
    split
    · rename_i seconds found
      exact iff_of_true rfl ⟨seconds, found⟩
    · rename_i other
      exact iff_of_false (by simp) fun ⟨seconds, found⟩ => other seconds found
  rw [specMatches, Bool.and_eq_true, Bool.and_eq_true, retention, decide_eq_true_eq,
    decide_eq_true_eq, Option.bind_eq_some_iff]
  exact ⟨fun ⟨⟨key, filter⟩, seconds⟩ => ⟨key, filter, seconds⟩,
    fun passes => ⟨⟨passes.key, passes.filter⟩, passes.retention⟩⟩

/-- An index that is the wanted TTL index, but for its retention. -/
structure Repairable (index : Index) : Prop where
  key : index.key = ascending ["lastAttemptedAt"]
  filter : index.partialFilterExpression = some (.obj [("status", .str SENT)])
  unique : index.unique = false
  sparse : index.sparse = false

theorem expiring_eq_iff_repairable {index : Index}
    (named : index.name = OUTBOX_SENT_TTL_INDEX_NAME) :
    index.expiring (.int cfg.outboxSentTtlSeconds) = outboxSentTtlIndex cfg ↔
      Repairable index := by
  simp only [Index.expiring, outboxSentTtlIndex, Index.mk.injEq, named, true_and]
  constructor
  · rintro ⟨key, unique, sparse, filter⟩
    exact ⟨key, filter, unique, sparse⟩
  · rintro ⟨key, filter, unique, sparse⟩
    exact ⟨key, unique, sparse, filter⟩

theorem index?_name {collection : Collection} {name : String} {index : Index}
    (found : collection.index? name = some index) : index.name = name :=
  (Catalog.lookup_eq_some_iff.mp found).2

end Reconciliation

namespace Sample

/-- A TTL index with one more condition. -/
def retriedOnlyIndex : Index :=
  { outboxSentTtlIndex config with
    partialFilterExpression :=
      some (.obj [("status", .str SENT), ("attempts", .obj [("$gte", .int 1)])]) }

/-- A database in which the outbox has one index only. -/
def databaseWith (index : Index) : Database
  | .outbox => some ⟨[index], List.nodup_singleton _⟩
  | _ => none

end Sample

theorem othersAgree_databaseWith (cfg : Config) {index : Index}
    (named : index.name = OUTBOX_SENT_TTL_INDEX_NAME) :
    OthersAgree cfg (Sample.databaseWith index) := by
  intro name definition member found present
  cases name with
  | outbox =>
      have stored := (Catalog.lookup_eq_some_iff.mp present).1
      obtain rfl := List.mem_singleton.mp stored
      have other := of_decide_eq_true (List.mem_filter.mp member).2
      exact absurd ((index?_name present).symm.trans named) other
  | status => cases present
  | uploadMetadata => cases present
  | sessions => cases present

/-- Startup converges exactly when a TTL index that passes the comparison is the wanted one, but
for its retention. -/
theorem converges_iff_repairable (cfg : Config) {db : Database} (others : OthersAgree cfg db) :
    Converges cfg db ↔
      ∀ index, (db .outbox).index? OUTBOX_SENT_TTL_INDEX_NAME = some index →
        PassesComparison index → Repairable index := by
  rw [converges_iff_createIndexes]
  simp only [← specMatches_iff]
  constructor
  · rintro ⟨after, done⟩ index found same
    obtain ⟨-, outbox, reconciled, agrees⟩ := createIndexes_eq_ok cfg done
    have kept := reconciled.ttl
    rw [found, Option.bind_some, if_pos same] at kept
    have wanted := agrees _ (outboxSentTtlIndex_wanted cfg) _ kept
    exact (expiring_eq_iff_repairable cfg (index?_name found)).mp wanted
  · intro repairable
    refine createIndexes_of_agrees cfg (fun name different => ?_) fun outbox reconciled => ?_
    · intro definition member
      refine others name definition (List.mem_filter.mpr ⟨member, decide_eq_true fun named => ?_⟩)
      exact different (wanted_ttl cfg member named).1
    · intro definition member index found
      by_cases ttl : definition.name = OUTBOX_SENT_TTL_INDEX_NAME
      · obtain ⟨-, rfl⟩ : CollectionName.outbox = .outbox ∧ definition = outboxSentTtlIndex cfg :=
          wanted_ttl cfg member ttl
        rw [ttl, reconciled.ttl, Option.bind_eq_some_iff] at found
        obtain ⟨before, stored, left⟩ := found
        by_cases same : specMatches before = true
        · rw [if_pos same] at left
          cases left
          exact (expiring_eq_iff_repairable cfg (index?_name stored)).mpr
            (repairable before stored same)
        · simp [same] at left
      · rw [reconciled.others _ ttl] at found
        exact others .outbox definition (List.mem_filter.mpr ⟨member, decide_eq_true ttl⟩) index
          found

theorem converges_iff_repairable_sample : Converges Sample.config
    (Sample.databaseWith ((outboxSentTtlIndex Sample.config).expiring (.int 3600))) := by
  refine (converges_iff_repairable Sample.config (othersAgree_databaseWith _ rfl)).mpr ?_
  intro index found _
  cases found
  exact ⟨rfl, rfl, rfl, rfl⟩

/-- The condition on `attempts` is not compared, and `createIndexes` meets it. -/
theorem kept_ttl_index_conflicts :
    OthersAgree Sample.config (Sample.databaseWith Sample.retriedOnlyIndex) ∧
      ¬ Converges Sample.config (Sample.databaseWith Sample.retriedOnlyIndex) := by
  refine ⟨othersAgree_databaseWith _ rfl, ?_⟩
  rintro ⟨after, done, -⟩
  have refused : ∃ left, (createIndexes Sample.config).run
      (Sample.databaseWith Sample.retriedOnlyIndex) = .error .indexKeySpecsConflict left :=
    ⟨_, rfl⟩
  obtain ⟨left, refused⟩ := refused
  cases refused.symm.trans done

end ObjectProcessor
