import Mathlib.Data.List.Nodup
import Mathlib.Data.List.Range
import ObjectProcessor.Library.Transition

/-!
# The database connection

The module keeps one client and its database handle.  `connectDb` opens a client and
creates the indexes before it resolves, and `closeDb` lets go of the client before it waits
for it to close.  Both are interrupted wherever they await, and what they await settles in
any order.
-/

namespace ObjectProcessor

open Library

/-- The clients in the order in which they were opened. -/
abbrev ClientId := Nat

/-- A call of `closeDb`. -/
inductive CloseCall where
  /-- The client it has taken, if there was one, has not closed. -/
  | closing (openClient : Option ClientId)
  | closed (openClient : Option ClientId)
  deriving DecidableEq, Repr

def CloseCall.openClient : CloseCall → Option ClientId
  | .closing openClient | .closed openClient => openClient

/-- A call of `connectDb`. -/
inductive ConnectCall where
  /-- `MongoClient.connect` has not settled. -/
  | opening
  /-- `createIndexes` has not settled. -/
  | indexing (newClient : ClientId)
  /-- `createIndexes` was rejected, and the call waits for this call of `closeDb`. -/
  | discarding (close : Nat)
  | resolved
  | rejected
  /-- `newClient.db` has thrown, and the client stays set. -/
  | rejectedWithClient
  deriving DecidableEq, Repr

def ConnectCall.isSettled : ConnectCall → Bool
  | .resolved | .rejected | .rejectedWithClient => true
  | .opening | .indexing _ | .discarding _ => false

/-- What comes of opening a client. -/
inductive Opening where
  /-- `MongoClient.connect` is rejected. -/
  | refused
  /-- The client is open, and `newClient.db` throws. -/
  | withoutDb
  | connected
  deriving DecidableEq, Repr

inductive MongoLog where
  /-- `connectDb called with a secure context after the connection was opened` -/
  | secureContextIgnored
  /-- `MongoDB indexes created` -/
  | indexesCreated
  /-- `Connected to MongoDB` -/
  | connected
  /-- `Failed to close the MongoDB client` -/
  | closeFailed
  deriving DecidableEq, Repr

structure Mongo where
  client : Option ClientId
  /-- The client whose database handle it is. -/
  db : Option ClientId
  /-- The clients that `MongoClient.connect` has opened. -/
  opened : Nat
  connects : List ConnectCall
  closes : List CloseCall
  log : List MongoLog
  deriving DecidableEq, Repr

namespace Mongo

inductive Action where
  | connectDb (secureContext : Bool)
  /-- `MongoClient.connect` settles. -/
  | opens (call : Nat) (opening : Opening)
  /-- `createIndexes` settles. -/
  | indexes (call : Nat) (failed : Bool)
  /-- A call that was to discard its client goes on to its end. -/
  | rejects (call : Nat)
  | closeDb
  /-- The client of a call of `closeDb` settles. -/
  | closes (call : Nat) (failed : Bool)
  deriving DecidableEq, Repr

/-- The module when it is loaded. -/
def initial : Mongo where
  client := none
  db := none
  opened := 0
  connects := []
  closes := []
  log := []

variable (mongo : Mongo)

/-- `closeDb`, up to its `await`. -/
def closeDb : Mongo :=
  { mongo with
    client := none
    db := none
    closes := mongo.closes ++ [.closing mongo.client] }

/-- `connectDb`, up to its `await` or to its early return. -/
def connectDb (secureContext : Bool) : Mongo :=
  if mongo.client.isSome then
    { mongo with
      connects := mongo.connects ++ [.resolved]
      log := mongo.log ++ if secureContext then [.secureContextIgnored] else [] }
  else { mongo with connects := mongo.connects ++ [.opening] }

/-- A call of `connectDb` goes on from there. -/
def proceed (call : Nat) (after : ConnectCall) : Mongo :=
  { mongo with connects := mongo.connects.set call after }

/-- `mongo.client = newClient` -/
def setClient : Mongo :=
  { mongo with
    client := some mongo.opened
    opened := mongo.opened + 1 }

/-- The new client is kept, and its database handle. -/
def keep : Mongo := { mongo.setClient with db := some mongo.opened }

def step : Action → Option Mongo
  | .connectDb secureContext => some (mongo.connectDb secureContext)
  | .opens call opening =>
      if mongo.connects[call]? = some .opening then
        some
          (match opening with
          | .refused => mongo.proceed call .rejected
          | .withoutDb => mongo.setClient.proceed call .rejectedWithClient
          | .connected => mongo.keep.proceed call (.indexing mongo.opened))
      else none
  | .indexes call failed =>
      match mongo.connects[call]? with
      | some (.indexing _) =>
          some (if failed then mongo.closeDb.proceed call (.discarding mongo.closes.length)
            else { mongo.proceed call .resolved with
              log := mongo.log ++ [.indexesCreated, .connected] })
      | _ => none
  | .rejects call =>
      match mongo.connects[call]? with
      | some (.discarding close) =>
          match mongo.closes[close]? with
          | some (.closed _) => some (mongo.proceed call .rejected)
          | _ => none
      | _ => none
  | .closeDb => some mongo.closeDb
  | .closes call failed =>
      match mongo.closes[call]? with
      | some (.closing openClient) =>
          some { mongo with
            closes := mongo.closes.set call (.closed openClient)
            log := mongo.log ++ if failed then [.closeFailed] else [] }
      | _ => none

/-- No call of `connectDb` is under way. -/
def isQuiet : Bool := mongo.connects.all ConnectCall.isSettled

/-- The clients that were given to a call of `closeDb`. -/
def discarded : List ClientId := mongo.closes.filterMap CloseCall.openClient

/-- What an accepted step has required, and where it leads. -/
inductive Edge (mongo : Mongo) : Action → Mongo → Prop where
  | kept (secureContext : Bool) (held : mongo.client.isSome) :
      Edge mongo (.connectDb secureContext)
        { mongo with
          connects := mongo.connects ++ [.resolved]
          log := mongo.log ++ if secureContext then [.secureContextIgnored] else [] }
  | connects (secureContext : Bool) (free : mongo.client = none) :
      Edge mongo (.connectDb secureContext)
        { mongo with connects := mongo.connects ++ [.opening] }
  | opened {call : Nat} (opening : mongo.connects[call]? = some .opening) :
      Edge mongo (.opens call .connected) (mongo.keep.proceed call (.indexing mongo.opened))
  | withoutDb {call : Nat} (opening : mongo.connects[call]? = some .opening) :
      Edge mongo (.opens call .withoutDb) (mongo.setClient.proceed call .rejectedWithClient)
  | refused {call : Nat} (opening : mongo.connects[call]? = some .opening) :
      Edge mongo (.opens call .refused) (mongo.proceed call .rejected)
  | indexed {call : Nat} {newClient : ClientId}
      (indexing : mongo.connects[call]? = some (.indexing newClient)) :
      Edge mongo (.indexes call false)
        { mongo.proceed call .resolved with log := mongo.log ++ [.indexesCreated, .connected] }
  | discards {call : Nat} {newClient : ClientId}
      (indexing : mongo.connects[call]? = some (.indexing newClient)) :
      Edge mongo (.indexes call true)
        (mongo.closeDb.proceed call (.discarding mongo.closes.length))
  | rejects {call close : Nat} {openClient : Option ClientId}
      (discarding : mongo.connects[call]? = some (.discarding close))
      (closed : mongo.closes[close]? = some (.closed openClient)) :
      Edge mongo (.rejects call) (mongo.proceed call .rejected)
  | closeDb : Edge mongo .closeDb mongo.closeDb
  | closes {call : Nat} {openClient : Option ClientId} (failed : Bool)
      (closing : mongo.closes[call]? = some (.closing openClient)) :
      Edge mongo (.closes call failed)
        { mongo with
          closes := mongo.closes.set call (.closed openClient)
          log := mongo.log ++ if failed then [.closeFailed] else [] }

variable {mongo} {next : Mongo} {action : Action}

theorem edge_of_step (accepted : mongo.step action = some next) : Edge mongo action next := by
  cases action with
  | connectDb secureContext =>
      cases accepted
      unfold Mongo.connectDb
      split
      · rename_i held
        exact .kept secureContext held
      · rename_i free
        exact .connects secureContext (by simpa using free)
  | opens call opening =>
      simp only [step, Option.ite_none_right_eq_some, Option.some.injEq] at accepted
      obtain ⟨isOpening, rfl⟩ := accepted
      cases opening with
      | refused => exact .refused isOpening
      | withoutDb => exact .withoutDb isOpening
      | connected => exact .opened isOpening
  | indexes call failed =>
      simp only [step] at accepted
      split at accepted
      · rename_i newClient indexing
        cases accepted
        cases failed with
        | false => exact .indexed indexing
        | true => exact .discards indexing
      · cases accepted
  | rejects call =>
      simp only [step] at accepted
      split at accepted
      · rename_i close discarding
        split at accepted
        · rename_i openClient closed
          cases accepted
          exact .rejects discarding closed
        · cases accepted
      · cases accepted
  | closeDb =>
      cases accepted
      exact .closeDb
  | closes call failed =>
      simp only [step] at accepted
      split at accepted
      · rename_i openClient closing
        cases accepted
        exact .closes failed closing
      · cases accepted

/-! ## Where the clients are -/

/-- Every client that was opened is held or was given to one call of `closeDb`. -/
def Accounted (mongo : Mongo) : Prop :=
  (mongo.client.toList ++ mongo.discarded).Perm (List.range mongo.opened)

/-- The database handle is that of the client. -/
def HandleOfClient (mongo : Mongo) : Prop := mongo.db = mongo.client

/-- A client is opened only while none is held. -/
def OpensFree (mongo : Mongo) : Action → Prop
  | .opens _ .withoutDb | .opens _ .connected => mongo.client = none
  | _ => True

/-- `newClient.db` does not throw. -/
def OpensWithDb (_ : Mongo) : Action → Prop
  | .opens _ .withoutDb => False
  | _ => True

/-- `connectDb` is called only while no call of it is under way. -/
def CallsApart (mongo : Mongo) : Action → Prop
  | .connectDb _ => mongo.isQuiet = true
  | _ => True

instance (mongo : Mongo) : (action : Action) → Decidable (mongo.CallsApart action)
  | .connectDb _ => inferInstanceAs (Decidable (mongo.isQuiet = true))
  | .opens .. | .indexes .. | .rejects _ | .closeDb | .closes .. => isTrue trivial

@[simp]
theorem discarded_proceed (call : Nat) (after : ConnectCall) :
    (mongo.proceed call after).discarded = mongo.discarded := rfl

@[simp]
theorem discarded_keep : mongo.keep.discarded = mongo.discarded := rfl

@[simp]
theorem discarded_closeDb :
    mongo.closeDb.discarded = mongo.discarded ++ mongo.client.toList := by
  rw [discarded, closeDb, List.filterMap_append]
  cases mongo.client <;> rfl

/-- A client that has closed is still the one its call was given. -/
theorem discarded_closes {call : Nat} {openClient : Option ClientId}
    (closing : mongo.closes[call]? = some (.closing openClient)) :
    (mongo.closes.set call (.closed openClient)).filterMap CloseCall.openClient =
      mongo.discarded := by
  obtain ⟨bound, there⟩ := List.getElem?_eq_some_iff.mp closing
  have same : (mongo.closes.set call (.closed openClient)).map CloseCall.openClient =
      mongo.closes.map CloseCall.openClient := by
    refine List.ext_getElem? fun index => ?_
    rw [List.map_set, List.getElem?_set, List.getElem?_map]
    split
    · rename_i here
      subst here
      simp [bound, there, CloseCall.openClient]
    · rfl
  have flat (calls : List CloseCall) : calls.filterMap CloseCall.openClient =
      (calls.map CloseCall.openClient).filterMap id := by
    rw [List.filterMap_map]
    rfl
  rw [flat, same, discarded, flat]

theorem accounted_initial : Accounted initial := .refl _

/-- A new client is accounted for exactly when it takes the place of none. -/
theorem accounted_setClient (accounted : mongo.Accounted) :
    mongo.setClient.Accounted ↔ mongo.client = none := by
  have newest : (List.range (mongo.opened + 1)).Perm
      (mongo.opened :: List.range mongo.opened) := by
    rw [List.range_succ]
    exact List.perm_append_comm
  show ((mongo.opened :: mongo.discarded).Perm (List.range (mongo.opened + 1))) ↔
    mongo.client = none
  rw [newest.congr_right, List.perm_cons]
  constructor
  · intro free
    have lengths := (accounted.trans free.symm).length_eq
    simpa using lengths
  · intro free
    simpa [Accounted, free] using accounted

/-- Only a client that takes the place of another is lost. -/
theorem accounted_step (accounted : mongo.Accounted) (edge : Edge mongo action next) :
    next.Accounted ↔ mongo.OpensFree action := by
  cases edge with
  | kept => exact iff_true_intro accounted
  | connects => exact iff_true_intro accounted
  | refused => exact iff_true_intro accounted
  | indexed => exact iff_true_intro accounted
  | rejects => exact iff_true_intro accounted
  | discards =>
      refine iff_true_intro ?_
      show (mongo.closeDb.discarded).Perm (List.range mongo.opened)
      rw [discarded_closeDb]
      exact List.perm_append_comm.trans accounted
  | closeDb =>
      refine iff_true_intro ?_
      show (mongo.closeDb.discarded).Perm (List.range mongo.opened)
      rw [discarded_closeDb]
      exact List.perm_append_comm.trans accounted
  | closes failed closing =>
      refine iff_true_intro ?_
      rw [Accounted, discarded, discarded_closes closing]
      exact accounted
  | opened => exact accounted_setClient accounted
  | withoutDb => exact accounted_setClient accounted

/-! ## Calls that do not overlap -/

/-- A call that has not come as far as to hold a client. -/
def holdsNothing : ConnectCall → Bool
  | .opening | .discarding _ | .rejected => true
  | .indexing _ | .resolved | .rejectedWithClient => false

/-- What holds while the calls of `connectDb` follow one another. -/
structure Single (mongo : Mongo) : Prop where
  unsettled : ∀ index call, mongo.connects[index]? = some call → call.isSettled = false →
    index + 1 = mongo.connects.length
  empty : ∀ index call, mongo.connects[index]? = some call →
    index + 1 = mongo.connects.length → holdsNothing call = true → mongo.client = none
  held : ∀ index call, mongo.connects[index]? = some call →
    index + 1 = mongo.connects.length → holdsNothing call = false → mongo.closes = [] →
      mongo.client.isSome = true

theorem single_initial : Single initial := by
  constructor <;> simp [initial]

/-- The last call is replaced by what it has come to. -/
theorem single_set (single : mongo.Single) {call : Nat} {before : ConnectCall}
    (found : mongo.connects[call]? = some before) (unsettled : before.isSettled = false)
    {after : ConnectCall} (connects : next.connects = mongo.connects.set call after)
    (empty : holdsNothing after = true → next.client = none)
    (held : holdsNothing after = false → next.closes = [] → next.client.isSome = true) :
    next.Single := by
  have isLast := single.unsettled call before found unsettled
  have length : next.connects.length = mongo.connects.length := by simp [connects]
  have atLast {index : Nat} {state : ConnectCall} (there : next.connects[index]? = some state)
      (last : index + 1 = next.connects.length) : state = after := by
    have here : index = call := by omega
    rw [connects, here, List.getElem?_set_self (by omega)] at there
    exact (Option.some.inj there).symm
  constructor
  · intro index state there pending
    by_cases here : call = index
    · omega
    · rw [connects, List.getElem?_set_ne here] at there
      exact length ▸ single.unsettled index state there pending
  · intro index state there last nothing
    exact empty (atLast there last ▸ nothing)
  · intro index state there last something unclosed
    exact held (atLast there last ▸ something) unclosed

/-- A call is made after the others have settled. -/
theorem single_append (quiet : mongo.isQuiet = true) {call : ConnectCall}
    (connects : next.connects = mongo.connects ++ [call])
    (empty : holdsNothing call = true → next.client = none)
    (held : holdsNothing call = false → next.client.isSome = true) : next.Single := by
  have atLast {index : Nat} {state : ConnectCall} (there : next.connects[index]? = some state)
      (last : index + 1 = next.connects.length) : state = call := by
    have here : index = mongo.connects.length := by
      simpa [connects] using last
    rw [connects, here] at there
    simpa using there.symm
  constructor
  · intro index state there pending
    by_contra earlier
    have before : index < mongo.connects.length := by
      have bound := (List.getElem?_eq_some_iff.mp there).1
      simp only [connects, List.length_append, List.length_singleton] at bound earlier
      omega
    rw [connects, List.getElem?_append_left before] at there
    have settled := List.all_eq_true.mp quiet state (List.mem_of_getElem? there)
    rw [settled] at pending
    cases pending
  · intro index state there last nothing
    exact empty (atLast there last ▸ nothing)
  · intro index state there last something _
    exact held (atLast there last ▸ something)

/-- Nothing a call of `closeDb` does touches the calls of `connectDb`. -/
theorem single_closes (single : mongo.Single) {openClient : Option ClientId}
    {closes : List CloseCall} {log : List MongoLog} (closing : closes ≠ [])
    (kept : openClient = none ∨ openClient = mongo.client) (db : Option ClientId) :
    Single { mongo with client := openClient, db := db, closes := closes, log := log } := by
  refine ⟨single.unsettled, ?_, fun _ _ _ _ _ none => absurd none closing⟩
  intro index state there last nothing
  rcases kept with rfl | rfl
  · rfl
  · exact single.empty index state there last nothing

theorem single_step (single : mongo.Single) (edge : Edge mongo action next)
    (apart : mongo.CallsApart action) : next.Single := by
  cases edge with
  | kept secureContext held =>
      exact single_append apart rfl (fun nothing => Bool.noConfusion nothing) fun _ => held
  | connects secureContext free =>
      exact single_append apart rfl (fun _ => free) fun something => Bool.noConfusion something
  | opened opening =>
      exact single_set single opening rfl rfl (fun nothing => Bool.noConfusion nothing)
        fun _ _ => rfl
  | withoutDb opening =>
      exact single_set single opening rfl rfl (fun nothing => Bool.noConfusion nothing)
        fun _ _ => rfl
  | refused opening =>
      have free := single.empty _ _ opening (single.unsettled _ _ opening rfl) rfl
      exact single_set single opening rfl rfl (fun _ => free)
        fun something => Bool.noConfusion something
  | indexed indexing =>
      have held := single.held _ _ indexing (single.unsettled _ _ indexing rfl) rfl
      exact single_set single indexing rfl rfl (fun nothing => Bool.noConfusion nothing)
        fun _ => held
  | discards indexing =>
      exact single_set single indexing rfl rfl (fun _ => rfl)
        fun something => Bool.noConfusion something
  | rejects discarding closed =>
      have free := single.empty _ _ discarding (single.unsettled _ _ discarding rfl) rfl
      exact single_set single discarding rfl rfl (fun _ => free)
        fun something => Bool.noConfusion something
  | closeDb => exact single_closes single (by simp) (Or.inl rfl) none
  | closes failed closing =>
      have called := List.ne_nil_of_mem (List.mem_of_getElem? closing)
      exact single_closes single (by simpa using called) (Or.inr rfl) mongo.db

/-! ## Runs of the module -/

/-- The clients are numbered as they are opened. -/
theorem client_lt_opened (reachable : Reaches step initial mongo) {client : ClientId}
    (held : mongo.client = some client) : client < mongo.opened := by
  revert client
  refine reachable.induction (motive := fun mongo => ∀ {client : ClientId},
    mongo.client = some client → client < mongo.opened) (fun none => by cases none)
    fun mongo action next _ earlier accepted client held => ?_
  cases edge_of_step accepted with
  | opened => exact Option.some.inj held ▸ Nat.lt_succ_self _
  | withoutDb => exact Option.some.inj held ▸ Nat.lt_succ_self _
  | discards => cases held
  | closeDb => cases held
  | _ => exact earlier held

/-- Only a client without a handle parts the two. -/
theorem handleOfClient_step (reachable : Reaches step initial mongo)
    (same : mongo.HandleOfClient) (edge : Edge mongo action next) :
    next.HandleOfClient ↔ mongo.OpensWithDb action := by
  cases edge with
  | withoutDb =>
      refine iff_of_false (fun handle => ?_) id
      have held : mongo.client = some mongo.opened := same.symm.trans handle
      exact lt_irrefl _ (client_lt_opened reachable held)
  | opened => exact iff_true_intro rfl
  | discards => exact iff_true_intro rfl
  | closeDb => exact iff_true_intro rfl
  | _ => exact iff_true_intro same

/-- A call that follows the others replaces no client. -/
theorem opensFree_of_single (single : mongo.Single) (edge : Edge mongo action next) :
    mongo.OpensFree action := by
  cases edge with
  | opened opening => exact single.empty _ _ opening (single.unsettled _ _ opening rfl) rfl
  | withoutDb opening => exact single.empty _ _ opening (single.unsettled _ _ opening rfl) rfl
  | _ => trivial

theorem accounted_of_callsApart {actions : List Action}
    (apart : EveryStep step CallsApart initial actions) :
    Throughout step (fun mongo => mongo.Accounted ∧ mongo.Single) initial actions := by
  refine throughout_of_everyStep ⟨accounted_initial, single_initial⟩ ?_ apart
  rintro mongo action next _ ⟨accounted, single⟩ apart accepted
  have edge := edge_of_step accepted
  exact ⟨(accounted_step accounted edge).mpr (opensFree_of_single single edge),
    single_step single edge apart⟩

/-! ## A call that resolves -/

/-- What holds after a call of `connectDb` until `closeDb` is called: if the call is creating the
indexes or has resolved, the client is held, and the calls after it have returned at once. -/
def Keeps (index : Nat) (mongo : Mongo) : Prop :=
  index < mongo.connects.length ∧
    ((∃ newClient, mongo.connects[index]? = some (.indexing newClient)) ∨
        mongo.connects[index]? = some .resolved →
      mongo.client.isSome = true ∧
        ∀ later, index < later → later < mongo.connects.length →
          mongo.connects[later]? = some .resolved)

/-- While the client of a call is held, no call that is under way but that one goes on. -/
theorem Keeps.eq_of_unsettled {index : Nat} (keeps : mongo.Keeps index) (single : mongo.Single)
    {call : Nat} {state : ConnectCall} (there : mongo.connects[call]? = some state)
    (unsettled : state.isSettled = false)
    (holding : (∃ newClient, mongo.connects[index]? = some (.indexing newClient)) ∨
      mongo.connects[index]? = some .resolved) : call = index := by
  have isLast := single.unsettled call state there unsettled
  have within := keeps.1
  by_contra differ
  have bound := (List.getElem?_eq_some_iff.mp there).1
  have resolved := (keeps.2 holding).2 call (by omega) bound
  rw [there] at resolved
  cases resolved
  cases unsettled

/-- A call that is under way is replaced by what it has come to. -/
theorem Keeps.set {index : Nat} (keeps : mongo.Keeps index) (single : mongo.Single) {call : Nat}
    {before : ConnectCall} (found : mongo.connects[call]? = some before)
    (unsettled : before.isSettled = false) {after : ConnectCall}
    (connects : next.connects = mongo.connects.set call after)
    (held : call = index → holdsNothing after = false → next.client.isSome = true) :
    next.Keeps index := by
  have isLast := single.unsettled call before found unsettled
  have length : next.connects.length = mongo.connects.length := by simp [connects]
  refine ⟨length ▸ keeps.1, fun holding => ?_⟩
  rw [connects] at holding
  by_cases here : call = index
  · subst here
    rw [List.getElem?_set_self keeps.1] at holding
    refine ⟨held rfl ?_, fun later after within => by omega⟩
    rcases holding with ⟨newClient, same⟩ | same
    · rw [Option.some.inj same]
      rfl
    · rw [Option.some.inj same]
      rfl
  · rw [List.getElem?_set_ne here] at holding
    exact absurd (keeps.eq_of_unsettled single found unsettled holding) here

/-- A further call of `connectDb` returns at once while a client is held. -/
theorem Keeps.connectDb {index : Nat} (keeps : mongo.Keeps index) (secureContext : Bool) :
    (mongo.connectDb secureContext).Keeps index := by
  have grown (call : ConnectCall) : index < (mongo.connects ++ [call]).length ∧
      (mongo.connects ++ [call])[index]? = mongo.connects[index]? := by
    rw [List.length_append]
    exact ⟨Nat.lt_add_right _ keeps.1, List.getElem?_append_left keeps.1⟩
  unfold Mongo.connectDb
  split
  · refine ⟨(grown _).1, fun holding => ?_⟩
    rw [(grown _).2] at holding
    refine ⟨(keeps.2 holding).1, fun later after within => ?_⟩
    by_cases earlier : later < mongo.connects.length
    · rw [List.getElem?_append_left earlier]
      exact (keeps.2 holding).2 later after earlier
    · have isLast : later = mongo.connects.length := by
        simp only [List.length_append, List.length_singleton] at within
        omega
      rw [isLast, List.getElem?_concat_length]
  · rename_i free
    refine ⟨(grown _).1, fun holding => ?_⟩
    rw [(grown _).2] at holding
    exact absurd (keeps.2 holding).1 free

theorem keeps_step {index : Nat} (keeps : mongo.Keeps index) (single : mongo.Single)
    (edge : Edge mongo action next) (unclosed : action ≠ .closeDb) : next.Keeps index := by
  cases edge with
  | kept secureContext held =>
      have after := keeps.connectDb secureContext
      rwa [Mongo.connectDb, if_pos held] at after
  | connects secureContext free =>
      have after := keeps.connectDb secureContext
      rwa [Mongo.connectDb, if_neg (by simp [free])] at after
  | opened opening => exact keeps.set single opening rfl rfl fun _ _ => rfl
  | withoutDb opening => exact keeps.set single opening rfl rfl fun _ _ => rfl
  | refused opening =>
      exact keeps.set single opening rfl rfl fun _ something => Bool.noConfusion something
  | indexed indexing =>
      refine keeps.set single indexing rfl rfl fun here _ => ?_
      exact (keeps.2 (Or.inl ⟨_, here ▸ indexing⟩)).1
  | discards indexing =>
      exact keeps.set single indexing rfl rfl fun _ something => Bool.noConfusion something
  | rejects discarding =>
      exact keeps.set single discarding rfl rfl fun _ something => Bool.noConfusion something
  | closeDb => exact absurd rfl unclosed
  | closes => exact keeps

/-- The call that is made is the last one. -/
theorem keeps_of_connectDb (mongo : Mongo) (secureContext : Bool) :
    (mongo.connectDb secureContext).Keeps mongo.connects.length := by
  unfold Mongo.connectDb
  split
  · rename_i held
    refine ⟨by simp, fun _ => ⟨held, fun later after within => ?_⟩⟩
    simp only [List.length_append, List.length_singleton] at within
    omega
  · refine ⟨by simp, fun holding => ?_⟩
    rw [List.getElem?_concat_length] at holding
    rcases holding with ⟨_, same⟩ | same
    · cases same
    · cases same

/-- A client is held after a call of `connectDb` has resolved, unless `closeDb` was called since
the call was made. -/
theorem held_of_resolved {front rest : List Action} {secureContext : Bool} {earlier : Mongo}
    (apart : EveryStep step CallsApart initial (front ++ .connectDb secureContext :: rest))
    (before : runActions step initial front = some earlier)
    (after : runActions step (earlier.connectDb secureContext) rest = some mongo)
    (unclosed : .closeDb ∉ rest)
    (resolved : mongo.connects[earlier.connects.length]? = some .resolved) :
    mongo.client.isSome = true := by
  have called : runActions step initial (front ++ [.connectDb secureContext]) =
      some (earlier.connectDb secureContext) := runActions_snoc before rfl
  have single : (earlier.connectDb secureContext).Single :=
    (accounted_of_callsApart apart (front ++ [.connectDb secureContext]) rest _ (by simp)
      called).2
  have guarded : EveryStep step (fun mongo action => mongo.CallsApart action ∧ action ≠ .closeDb)
      (earlier.connectDb secureContext) rest := by
    rintro middle action others state rfl reached
    refine ⟨apart (front ++ .connectDb secureContext :: middle) action others state (by simp) ?_,
      ?_⟩
    · rw [runActions_append, before]
      exact reached
    · rintro rfl
      exact unclosed (by simp)
  have kept : Throughout step (fun mongo => mongo.Single ∧ mongo.Keeps earlier.connects.length)
      (earlier.connectDb secureContext) rest := by
    refine throughout_of_everyStep ⟨single, keeps_of_connectDb earlier secureContext⟩ ?_ guarded
    rintro state action next _ ⟨single, keeps⟩ ⟨apart, unclosed⟩ accepted
    have edge := edge_of_step accepted
    exact ⟨single_step single edge apart, keeps_step keeps single edge unclosed⟩
  exact ((kept rest [] mongo (by simp) after).2.2 (Or.inr resolved)).1

/-- The database handle is that of the client throughout a run exactly when `newClient.db` never
throws in it.  No client is lost exactly when none is opened while another is held.  This is so
when the calls of `connectDb` do not overlap: then nothing is held after the last call was
rejected, unless its `newClient.db` threw, and a client is held after a call has resolved unless
`closeDb` was called since the call was made. -/
theorem clients_held_or_closed {actions : List Action}
    (run : runActions step initial actions = some mongo) :
    (Throughout step HandleOfClient initial actions ↔
        EveryStep step OpensWithDb initial actions) ∧
      (Throughout step Accounted initial actions ↔ EveryStep step OpensFree initial actions) ∧
      (EveryStep step CallsApart initial actions →
        Throughout step Accounted initial actions ∧
        (mongo.connects.getLast? = some .rejected → mongo.client = none) ∧
        ∀ front secureContext rest earlier,
          actions = front ++ .connectDb secureContext :: rest →
          runActions step initial front = some earlier → .closeDb ∉ rest →
          mongo.connects[earlier.connects.length]? = some .resolved →
          mongo.client.isSome = true) := by
  refine ⟨?_, ?_, fun apart => ?_⟩
  · refine throughout_iff_everyStep rfl ?_ run
    exact fun _ _ _ reached same accepted =>
      handleOfClient_step reached same (edge_of_step accepted)
  · refine throughout_iff_everyStep accounted_initial ?_ run
    exact fun _ _ _ _ accounted accepted => accounted_step accounted (edge_of_step accepted)
  · have holds := accounted_of_callsApart apart
    obtain ⟨_, single⟩ := holds actions [] mongo (by simp) run
    refine ⟨holds.imp fun _ _ both => both.1, fun last => ?_, ?_⟩
    · rw [List.getLast?_eq_getElem?] at last
      have bound := (List.getElem?_eq_some_iff.mp last).1
      exact single.empty _ _ last (Nat.sub_add_cancel (by omega)) rfl
    · rintro front secureContext rest earlier rfl before unclosed resolved
      refine held_of_resolved apart before ?_ unclosed resolved
      rw [runActions_append, before] at run
      exact run

namespace Sample

/-- The indexes cannot be created at first; a second call connects, and a third finds the client. -/
def reconnect : List Action :=
  [ .connectDb true, .opens 0 .connected, .indexes 0 true, .closes 0 true, .rejects 0,
    .connectDb true, .opens 1 .connected, .indexes 1 false, .connectDb false ]

def reconnected : Mongo := (runActions step initial reconnect).get (by decide)

end Sample

/-- The client of the first call is closed, and the other is held after the calls that resolve. -/
theorem clients_held_or_closed_sample :
    Throughout step Accounted initial Sample.reconnect ∧ Sample.reconnected.opened = 2 ∧
      Sample.reconnected.discarded = [0] ∧ Sample.reconnected.client.isSome = true := by
  have run : runActions step initial Sample.reconnect = some Sample.reconnected :=
    (Option.some_get _).symm
  obtain ⟨accounted, _, held⟩ := (clients_held_or_closed run).2.2 (by decide)
  refine ⟨accounted, by decide, by decide, ?_⟩
  refine held (Sample.reconnect.take 5) true (Sample.reconnect.drop 6)
    ((runActions step initial (Sample.reconnect.take 5)).get (by decide)) rfl
    (Option.some_get _).symm (by decide) (by decide)

/-- Two calls that overlap open two clients, and the first is lost. -/
example : (runActions step initial
    [.connectDb true, .connectDb true, .opens 0 .connected, .opens 1 .connected]).map
      (fun mongo => (mongo.opened, mongo.client, mongo.discarded)) = some (2, some 1, []) := by
  decide

end Mongo

end ObjectProcessor
