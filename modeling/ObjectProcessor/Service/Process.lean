import ObjectProcessor.Outbox.PollPhases
import ObjectProcessor.Store.Connection

/-!
# The life of a process

The process connects to the database while its server is created, starts the poll loop when
the server has started, and is told to shut down by a signal that may arrive at any moment
after the plugin that handles it was registered.  A shutdown stops the loop, then the server,
and then closes the client.  Startup goes on in the meantime, and so does a run that the loop
no longer waits for.
-/

namespace ObjectProcessor

open Library

/-- How far `src/index.js` has come. -/
inductive Boot where
  /-- `createServer` has not come to the `mongodb` plugin. -/
  | creating
  /-- The plugin awaits its call of `connectDb`. -/
  | connecting (call : Nat)
  /-- `pulse` is registered; the plugins after it, and then `server.start`, are awaited. -/
  | starting
  /-- `startServer` has resolved. -/
  | served
  deriving DecidableEq, Repr

/-- A shutdown, by what it awaits. -/
inductive Shutdown where
  | preServerStop
  | serverStop
  | postServerStop (close : Nat)
  deriving DecidableEq, Repr

inductive Ending where
  /-- `startServer` was rejected. -/
  | startFailed
  /-- A shutdown has come to its end. -/
  | shutDown
  /-- It was killed, or a shutdown was given up. -/
  | killed
  deriving DecidableEq, Repr

structure Process where
  boot : Boot
  mongo : Mongo
  loop : PollLoop
  /-- The shutdowns in the order of their calls of `stopOutbox`. -/
  shutdowns : List Shutdown
  ended : Option Ending

namespace Process

inductive Action where
  /-- The `mongodb` plugin is registered. -/
  | register (secureContext : Bool)
  /-- Something `connectDb` or `closeDb` awaits settles. -/
  | mongo (action : Mongo.Action)
  /-- `connectDb` has resolved, and `pulse` is registered. -/
  | connected
  | serverStarted
  /-- `startServer` is rejected. -/
  | startFailed
  | startOutbox
  /-- A timer of the poll loop fires, or something it awaits settles. -/
  | loop (action : PollLoop.Action)
  | signal
  /-- `stopOutbox` has resolved, and the server is stopped. -/
  | serverStop (shutdown : Nat)
  /-- The server has stopped, and `closeDb` is called. -/
  | postServerStop (shutdown : Nat)
  /-- `closeDb` has resolved, and the process exits. -/
  | exit (shutdown : Nat)
  | kill
  deriving DecidableEq, Repr

def initial : Process where
  boot := .creating
  mongo := .initial
  loop := .initial
  shutdowns := []
  ended := none

/-- A step of the module that is not a call from outside. -/
def isSettling : Mongo.Action → Bool
  | .connectDb _ | .closeDb => false
  | .opens .. | .indexes .. | .rejects _ | .closes .. => true

def isCallback : PollLoop.Action → Bool
  | .start | .stop => false
  | .fire _ | .settle .. | .finish _ | .drain _ | .drainTimeout _ | .resume _ => true

/-- `startServer` can be rejected: by a plugin or by `server.start`. -/
def canFail (process : Process) : Bool :=
  match process.boot with
  | .creating | .starting => true
  | .connecting call =>
      process.mongo.connects[call]? = some .rejected ||
        process.mongo.connects[call]? = some .rejectedWithClient
  | .served => false

def hasPulse : Boot → Bool
  | .starting | .served => true
  | .creating | .connecting _ => false

variable (process : Process)

/-- A shutdown goes on to what it awaits next. -/
def proceed (shutdown : Nat) (after : Shutdown) : Process :=
  { process with shutdowns := process.shutdowns.set shutdown after }

/-- A step of a process that has not ended. -/
def live : Action → Option Process
  | .register secureContext =>
      if process.boot = .creating then
        some { process with
          boot := .connecting process.mongo.connects.length
          mongo := process.mongo.connectDb secureContext }
      else none
  | .mongo action =>
      if isSettling action then
        (process.mongo.step action).map fun next => { process with mongo := next }
      else none
  | .connected =>
      match process.boot with
      | .connecting call =>
          if process.mongo.connects[call]? = some .resolved then
            some { process with boot := .starting }
          else none
      | _ => none
  | .serverStarted =>
      if process.boot = .starting then some { process with boot := .served } else none
  | .startFailed =>
      if process.canFail then some { process with ended := some .startFailed } else none
  | .startOutbox =>
      if process.boot = .served then
        (process.loop.step .start).map fun next => { process with loop := next }
      else none
  | .loop action =>
      if isCallback action then
        (process.loop.step action).map fun next => { process with loop := next }
      else none
  | .signal =>
      if hasPulse process.boot then
        some { process with
          loop := process.loop.stopOutbox
          shutdowns := process.shutdowns ++ [.preServerStop] }
      else none
  | .serverStop shutdown =>
      match process.shutdowns[shutdown]?, process.loop.stops[shutdown]? with
      | some .preServerStop, some (.resolved _) => some (process.proceed shutdown .serverStop)
      | _, _ => none
  | .postServerStop shutdown =>
      if process.shutdowns[shutdown]? = some .serverStop then
        some { process.proceed shutdown (.postServerStop process.mongo.closes.length) with
          mongo := process.mongo.closeDb }
      else none
  | .exit shutdown =>
      match process.shutdowns[shutdown]? with
      | some (.postServerStop close) =>
          match process.mongo.closes[close]? with
          | some (.closed _) => some { process with ended := some .shutDown }
          | _ => none
      | _ => none
  | .kill => some { process with ended := some .killed }

def step (action : Action) : Option Process :=
  if process.ended = none then process.live action else none

/-- What an accepted step has required, and where it leads. -/
inductive Edge (process : Process) : Action → Process → Prop where
  | register (secureContext : Bool) (creating : process.boot = .creating) :
      Edge process (.register secureContext)
        { process with
          boot := .connecting process.mongo.connects.length
          mongo := process.mongo.connectDb secureContext }
  | mongo {action : Mongo.Action} {next : Mongo} (settling : isSettling action = true)
      (accepted : process.mongo.step action = some next) :
      Edge process (.mongo action) { process with mongo := next }
  | connected {call : Nat} (connecting : process.boot = .connecting call)
      (resolved : process.mongo.connects[call]? = some .resolved) :
      Edge process .connected { process with boot := .starting }
  | serverStarted (starting : process.boot = .starting) :
      Edge process .serverStarted { process with boot := .served }
  | startFailed (fails : process.canFail = true) :
      Edge process .startFailed { process with ended := some .startFailed }
  | startOutbox {next : PollLoop} (served : process.boot = .served)
      (accepted : process.loop.step .start = some next) :
      Edge process .startOutbox { process with loop := next }
  | loop {action : PollLoop.Action} {next : PollLoop} (callback : isCallback action = true)
      (accepted : process.loop.step action = some next) :
      Edge process (.loop action) { process with loop := next }
  | signal (pulse : hasPulse process.boot = true) :
      Edge process .signal
        { process with
          loop := process.loop.stopOutbox
          shutdowns := process.shutdowns ++ [.preServerStop] }
  | serverStop {shutdown : Nat} {warned : Bool}
      (waits : process.shutdowns[shutdown]? = some .preServerStop)
      (resolved : process.loop.stops[shutdown]? = some (.resolved warned)) :
      Edge process (.serverStop shutdown) (process.proceed shutdown .serverStop)
  | postServerStop {shutdown : Nat}
      (waits : process.shutdowns[shutdown]? = some .serverStop) :
      Edge process (.postServerStop shutdown)
        { process.proceed shutdown (.postServerStop process.mongo.closes.length) with
          mongo := process.mongo.closeDb }
  | exit {shutdown close : Nat} {openClient : Option ClientId}
      (waits : process.shutdowns[shutdown]? = some (.postServerStop close))
      (closed : process.mongo.closes[close]? = some (.closed openClient)) :
      Edge process (.exit shutdown) { process with ended := some .shutDown }
  | kill : Edge process .kill { process with ended := some .killed }

variable {process} {next : Process} {action : Action}

theorem edge_of_step (accepted : process.step action = some next) :
    process.ended = none ∧ Edge process action next := by
  simp only [step, Option.ite_none_right_eq_some] at accepted
  obtain ⟨alive, accepted⟩ := accepted
  refine ⟨alive, ?_⟩
  cases action with
  | register secureContext =>
      simp only [live, Option.ite_none_right_eq_some, Option.some.injEq] at accepted
      obtain ⟨creating, rfl⟩ := accepted
      exact .register secureContext creating
  | mongo action =>
      simp only [live, Option.ite_none_right_eq_some, Option.map_eq_some_iff] at accepted
      obtain ⟨settling, next, accepted, rfl⟩ := accepted
      exact .mongo settling accepted
  | connected =>
      simp only [live] at accepted
      split at accepted
      · rename_i call connecting
        simp only [Option.ite_none_right_eq_some, Option.some.injEq] at accepted
        obtain ⟨resolved, rfl⟩ := accepted
        exact .connected connecting resolved
      · cases accepted
  | serverStarted =>
      simp only [live, Option.ite_none_right_eq_some, Option.some.injEq] at accepted
      obtain ⟨starting, rfl⟩ := accepted
      exact .serverStarted starting
  | startFailed =>
      simp only [live, Option.ite_none_right_eq_some, Option.some.injEq] at accepted
      obtain ⟨fails, rfl⟩ := accepted
      exact .startFailed fails
  | startOutbox =>
      simp only [live, Option.ite_none_right_eq_some, Option.map_eq_some_iff] at accepted
      obtain ⟨served, next, accepted, rfl⟩ := accepted
      exact .startOutbox served accepted
  | loop action =>
      simp only [live, Option.ite_none_right_eq_some, Option.map_eq_some_iff] at accepted
      obtain ⟨callback, next, accepted, rfl⟩ := accepted
      exact .loop callback accepted
  | signal =>
      simp only [live, Option.ite_none_right_eq_some, Option.some.injEq] at accepted
      obtain ⟨pulse, rfl⟩ := accepted
      exact .signal pulse
  | serverStop shutdown =>
      simp only [live] at accepted
      split at accepted
      · rename_i warned waits resolved
        cases accepted
        exact .serverStop waits resolved
      · cases accepted
  | postServerStop shutdown =>
      simp only [live, Option.ite_none_right_eq_some, Option.some.injEq] at accepted
      obtain ⟨waits, rfl⟩ := accepted
      exact .postServerStop waits
  | exit shutdown =>
      simp only [live] at accepted
      split at accepted
      · rename_i close waits
        split at accepted
        · rename_i openClient closed
          cases accepted
          exact .exit waits closed
        · cases accepted
      · cases accepted
  | kill =>
      cases accepted
      exact .kill

end Process

/-! ## What the process relies on in the loop -/

namespace PollLoop

variable {loop next : PollLoop} {action : Action}

/-- Only a call of `stopOutbox` adds to the calls, and one that has resolved stays so. -/
theorem stops_kept (edge : Edge loop action next) (other : action ≠ .stop) :
    next.stops.length = loop.stops.length ∧
      ∀ (call : Nat) (warned : Bool), loop.stops[call]? = some (.resolved warned) →
        next.stops[call]? = some (.resolved warned) := by
  have moved {call : Nat} {before after : StopCall}
      (waits : loop.stops[call]? = some before) (pending : ∀ warned, before ≠ .resolved warned) :
      (loop.stops.set call after).length = loop.stops.length ∧
        ∀ (other : Nat) (warned : Bool), loop.stops[other]? = some (.resolved warned) →
          (loop.stops.set call after)[other]? = some (.resolved warned) := by
    refine ⟨List.length_set, fun other warned resolved => ?_⟩
    have apart : call ≠ other := by
      rintro rfl
      exact pending warned (Option.some.inj (waits.symm.trans resolved))
    rwa [List.getElem?_set_ne apart]
  cases edge with
  | start => unfold startOutbox; split <;> exact ⟨rfl, fun _ _ resolved => resolved⟩
  | fire => unfold startOutbox; split <;> exact ⟨rfl, fun _ _ resolved => resolved⟩
  | settle => exact ⟨rfl, fun _ _ resolved => resolved⟩
  | finish => simp [finishRun]
  | stop => exact absurd rfl other
  | drain waits => exact moved waits (by simp)
  | drainTimeout waits => exact moved waits (by simp)
  | resume waits => exact moved waits (by simp)

theorem started_kept (edge : Edge loop action next) (other : action ≠ .start) :
    next.started = loop.started := by
  cases edge with
  | start => exact absurd rfl other
  | fire => unfold startOutbox; split <;> rfl
  | finish => unfold finishRun scheduleNextRun; simp only []; split <;> rfl
  | _ => rfl

theorem started_of_start (edge : Edge loop .start next) : next.started = true := by
  cases edge with
  | start => unfold startOutbox; split <;> rfl

/-- A loop that was not started has started no run. -/
theorem started_of_runs (reachable : Reaches step initial loop) (ran : loop.runsStarted ≠ 0) :
    loop.started = true := by
  revert ran
  refine reachable.induction (motive := fun loop => loop.runsStarted ≠ 0 → loop.started = true)
    (fun ran => absurd rfl ran) fun before action after reached holds accepted ran => ?_
  have edge := edge_of_step accepted
  by_cases starts : action = .start
  · subst starts
    exact started_of_start edge
  · rw [started_kept edge starts]
    cases edge with
    | start => exact absurd rfl starts
    | fire pending =>
        exact ((coherent_of_reaches reached).exclusive (List.ne_nil_of_mem pending)).2.2
    | finish => exact holds (by simpa [finishRun] using ran)
    | _ => exact holds ran

/-- A run starts only in a loop that has not been stopped. -/
theorem uncalled_of_runs (reachable : Reaches step initial loop)
    (accepted : loop.step action = some next) (starts : loop.runsStarted < next.runsStarted) :
    loop.stops = [] := by
  by_contra called
  have same := (after_stop (coherent_of_reaches reachable) called (.single accepted)).2.1
  omega

/-- A run that is in flight is being waited for, or its wait has been given up. -/
theorem warned_of_inFlight (reachable : Reaches step initial loop) {run : RunId}
    (inFlight : (loop.run run).inFlight = true) {call : Nat} {warned : Bool}
    (resolved : loop.stops[call]? = some (.resolved warned)) : .drainTimeout ∈ loop.log := by
  have coherent := coherent_of_reaches reachable
  have member := List.mem_of_getElem? resolved
  cases warned with
  | true => exact (warned_iff reachable).mpr member
  | false =>
      have quiet : loop.busy = false := coherent.calls _ member rfl
      rw [busy_of_inFlight coherent inFlight] at quiet
      cases quiet

end PollLoop

namespace Process

variable {process next : Process} {action : Action}

/-! ## The invariant -/

/-- Where the one call of `connectDb` is. -/
def Connecting (mongo : Mongo) : ConnectCall → Prop
  | .opening => mongo.opened = 0 ∧ mongo.closes = []
  | .indexing _ | .resolved => mongo.opened = 1 ∧ mongo.closes = []
  | .discarding _ | .rejected | .rejectedWithClient => mongo.opened ≤ 1

/-- `connectDb` has resolved, and only a shutdown has closed the client since. -/
structure Connected (mongo : Mongo) (shutdowns : List Shutdown) : Prop where
  connects : mongo.connects = [.resolved]
  opened : mongo.opened = 1
  closed : mongo.closes = [] ∨
    mongo.client = none ∧ ∃ close, .postServerStop close ∈ shutdowns

variable {boot : Boot} {mongo : Mongo} {shutdowns : List Shutdown}

/-- What startup has done to the database connection. -/
def Booted (mongo : Mongo) (shutdowns : List Shutdown) : Boot → Prop
  | .creating => mongo = .initial ∧ shutdowns = []
  | .connecting call => call = 0 ∧ shutdowns = [] ∧
      ∃ state, mongo.connects = [state] ∧ Connecting mongo state
  | .starting | .served => Connected mongo shutdowns

theorem booted_iff (pulse : hasPulse boot = true) :
    Booted mongo shutdowns boot ↔ Connected mongo shutdowns := by
  cases boot with
  | creating => cases pulse
  | connecting => cases pulse
  | starting => rfl
  | served => rfl

/-- No shutdown begins before its plugin is registered. -/
theorem pulse_of_shutdowns (booted : Booted mongo shutdowns boot) (shuts : shutdowns ≠ []) :
    hasPulse boot = true := by
  cases boot with
  | creating => exact absurd booted.2 shuts
  | connecting => exact absurd booted.2.1 shuts
  | starting => rfl
  | served => rfl

structure Sound (process : Process) : Prop where
  loop : Reaches PollLoop.step .initial process.loop
  single : process.mongo.Single
  accounted : process.mongo.Accounted
  booted : Booted process.mongo process.shutdowns process.boot
  calls : process.loop.stops.length = process.shutdowns.length
  drained : ∀ (index : Nat) (shutdown : Shutdown), process.shutdowns[index]? = some shutdown →
    shutdown ≠ .preServerStop → ∃ warned, process.loop.stops[index]? = some (.resolved warned)
  started : process.loop.started = true → process.boot = .served
  ended : process.ended = some .shutDown → ∃ (shutdown close : Nat) (openClient : Option ClientId),
    process.shutdowns[shutdown]? = some (.postServerStop close) ∧
      process.mongo.closes[close]? = some (.closed openClient)

theorem sound_initial : Sound initial where
  loop := .refl _
  single := Mongo.single_initial
  accounted := Mongo.accounted_initial
  booted := ⟨rfl, rfl⟩
  calls := rfl
  drained := by simp [initial]
  started := by simp [initial, PollLoop.initial]
  ended := by simp [initial]

theorem getElem?_singleton_inv {Call : Type*} {only found : Call} {index : Nat}
    (there : [only][index]? = some found) : index = 0 ∧ found = only := by
  cases index with
  | zero => exact ⟨rfl, (Option.some.inj there).symm⟩
  | succ index => cases there

/-- The one call of `connectDb` goes on. -/
theorem connecting_mongo {mongo next : Mongo} {state : ConnectCall}
    (connects : mongo.connects = [state]) (connecting : Connecting mongo state)
    {action : Mongo.Action} (edge : Mongo.Edge mongo action next)
    (settling : isSettling action = true) :
    ∃ after, next.connects = [after] ∧ Connecting next after := by
  have only {call : Nat} {before : ConnectCall}
      (there : mongo.connects[call]? = some before) : call = 0 ∧ state = before := by
    rw [connects] at there
    obtain ⟨first, same⟩ := getElem?_singleton_inv there
    exact ⟨first, same.symm⟩
  have set (after : ConnectCall) : mongo.connects.set 0 after = [after] := by simp [connects]
  cases edge with
  | kept => cases settling
  | connects => cases settling
  | closeDb => cases settling
  | opened opening =>
      obtain ⟨rfl, rfl⟩ := only opening
      obtain ⟨none, unclosed⟩ := connecting
      exact ⟨_, set _, congrArg Nat.succ none, unclosed⟩
  | withoutDb opening =>
      obtain ⟨rfl, rfl⟩ := only opening
      exact ⟨_, set _, (congrArg Nat.succ connecting.1).le⟩
  | refused opening =>
      obtain ⟨rfl, rfl⟩ := only opening
      exact ⟨_, set _, connecting.1.le.trans (Nat.zero_le 1)⟩
  | indexed indexing =>
      obtain ⟨rfl, rfl⟩ := only indexing
      exact ⟨_, set _, connecting⟩
  | discards indexing =>
      obtain ⟨rfl, rfl⟩ := only indexing
      exact ⟨_, set _, connecting.1.le⟩
  | rejects discarding =>
      obtain ⟨rfl, rfl⟩ := only discarding
      exact ⟨_, set _, connecting⟩
  | closes failed closing =>
      have called := List.ne_nil_of_mem (List.mem_of_getElem? closing)
      refine ⟨state, connects, ?_⟩
      cases state with
      | opening => exact absurd connecting.2 called
      | indexing => exact absurd connecting.2 called
      | resolved => exact absurd connecting.2 called
      | discarding => exact connecting
      | rejected => exact connecting
      | rejectedWithClient => exact connecting

/-- Once the client is connected, nothing but a close goes on. -/
theorem resolved_mongo {mongo next : Mongo} (connects : mongo.connects = [.resolved])
    {action : Mongo.Action} (edge : Mongo.Edge mongo action next)
    (settling : isSettling action = true) :
    mongo.closes ≠ [] ∧ next.connects = mongo.connects ∧ next.opened = mongo.opened ∧
      next.client = mongo.client ∧ next.closes.length = mongo.closes.length := by
  have only {call : Nat} {before : ConnectCall}
      (there : mongo.connects[call]? = some before) : before = .resolved := by
    rw [connects] at there
    exact (getElem?_singleton_inv there).2
  cases edge with
  | kept => cases settling
  | connects => cases settling
  | closeDb => cases settling
  | opened opening => cases only opening
  | withoutDb opening => cases only opening
  | refused opening => cases only opening
  | indexed indexing => cases only indexing
  | discards indexing => cases only indexing
  | rejects discarding => cases only discarding
  | closes failed closing =>
      exact ⟨List.ne_nil_of_mem (List.mem_of_getElem? closing), rfl, rfl, rfl, List.length_set⟩

theorem booted_mongo (booted : Booted mongo shutdowns boot) {action : Mongo.Action}
    {next : Mongo} (edge : Mongo.Edge mongo action next) (settling : isSettling action = true) :
    Booted next shutdowns boot := by
  by_cases pulse : hasPulse boot = true
  · obtain ⟨connects, opened, closed⟩ := (booted_iff pulse).mp booted
    obtain ⟨called, sameConnects, sameOpened, sameClient, _⟩ :=
      resolved_mongo connects edge settling
    obtain ⟨free, shuts⟩ := closed.resolve_left called
    exact (booted_iff pulse).mpr ⟨sameConnects.trans connects, sameOpened.trans opened,
      Or.inr ⟨sameClient.trans free, shuts⟩⟩
  · cases boot with
    | creating =>
        obtain ⟨rfl, none⟩ := booted
        cases edge with
        | kept => cases settling
        | connects => cases settling
        | closeDb => cases settling
        | opened opening => cases opening
        | withoutDb opening => cases opening
        | refused opening => cases opening
        | indexed indexing => cases indexing
        | discards indexing => cases indexing
        | rejects discarding => cases discarding
        | closes failed closing => cases closing
    | connecting call =>
        obtain ⟨rfl, none, state, connects, connecting⟩ := booted
        exact ⟨rfl, none, connecting_mongo connects connecting edge settling⟩
    | starting => exact absurd rfl pulse
    | served => exact absurd rfl pulse

/-- A process that goes on has not ended. -/
theorem unended {motive : Prop} (alive : process.ended = none)
    (ended : process.ended = some .shutDown) : motive := by
  rw [alive] at ended
  cases ended

theorem sound_mongo (sound : process.Sound) (alive : process.ended = none)
    {action : Mongo.Action} {next : Mongo}
    (edge : Mongo.Edge process.mongo action next) (settling : isSettling action = true) :
    Sound { process with mongo := next } := by
  have apart : process.mongo.CallsApart action := by
    cases action with
    | connectDb => cases settling
    | _ => trivial
  exact { sound with
    single := Mongo.single_step sound.single edge apart
    accounted := (Mongo.accounted_step sound.accounted edge).mpr
      (Mongo.opensFree_of_single sound.single edge)
    booted := booted_mongo sound.booted edge settling
    ended := unended alive }

/-- The loop goes on without a call of `stopOutbox`. -/
theorem sound_loop (sound : process.Sound) {action : PollLoop.Action} {next : PollLoop}
    (accepted : process.loop.step action = some next) (other : action ≠ .stop)
    (started : next.started = true → process.boot = .served) :
    Sound { process with loop := next } := by
  obtain ⟨length, resolved⟩ := PollLoop.stops_kept (PollLoop.edge_of_step accepted) other
  refine { sound with
    loop := sound.loop.tail accepted
    calls := length.trans sound.calls
    drained := fun index shutdown there past => ?_
    started := started }
  obtain ⟨warned, before⟩ := sound.drained index shutdown there past
  exact ⟨warned, resolved index warned before⟩

/-- A shutdown goes on to what it awaits next. -/
theorem sound_proceed (sound : process.Sound) (alive : process.ended = none)
    {shutdown : Nat} {before after : Shutdown}
    (waits : process.shutdowns[shutdown]? = some before)
    (resolved : ∃ warned, process.loop.stops[shutdown]? = some (.resolved warned))
    (early : ∀ close, before ≠ .postServerStop close) : Sound (process.proceed shutdown after) := by
  have kept (shuts : ∃ close, .postServerStop close ∈ process.shutdowns) :
      ∃ close, .postServerStop close ∈ process.shutdowns.set shutdown after := by
    obtain ⟨close, member⟩ := shuts
    exact ⟨close, (mem_set_iff waits (early close).symm).mpr (Or.inr member)⟩
  have pulse := pulse_of_shutdowns sound.booted (List.ne_nil_of_mem (List.mem_of_getElem? waits))
  obtain ⟨connects, opened, closed⟩ := (booted_iff pulse).mp sound.booted
  refine { sound with
    booted := (booted_iff pulse).mpr ⟨connects, opened, closed.imp id (And.imp id kept)⟩
    calls := sound.calls.trans List.length_set.symm
    drained := ?_
    ended := unended alive }
  intro index other there past
  by_cases here : shutdown = index
  · exact here ▸ resolved
  · refine sound.drained index other ?_ past
    rwa [proceed, List.getElem?_set_ne here] at there

/-- The client is closed by a shutdown. -/
theorem sound_closeDb (sound : process.Sound) (alive : process.ended = none) {close : Nat}
    (shuts : .postServerStop close ∈ process.shutdowns) :
    Sound { process with mongo := process.mongo.closeDb } := by
  have pulse := pulse_of_shutdowns sound.booted (List.ne_nil_of_mem shuts)
  obtain ⟨connects, opened, _⟩ := (booted_iff pulse).mp sound.booted
  exact { sound with
    single := Mongo.single_step sound.single .closeDb trivial
    accounted := (Mongo.accounted_step sound.accounted .closeDb).mpr trivial
    booted := (booted_iff pulse).mpr ⟨connects, opened, Or.inr ⟨rfl, close, shuts⟩⟩
    ended := unended alive }

theorem sound_signal (sound : process.Sound) (alive : process.ended = none)
    (pulse : hasPulse process.boot = true) :
    Sound { process with
      loop := process.loop.stopOutbox
      shutdowns := process.shutdowns ++ [.preServerStop] } := by
  have kept (shuts : ∃ close, .postServerStop close ∈ process.shutdowns) :
      ∃ close, .postServerStop close ∈ process.shutdowns ++ [.preServerStop] := by
    obtain ⟨close, member⟩ := shuts
    exact ⟨close, List.mem_append_left _ member⟩
  obtain ⟨connects, opened, closed⟩ := (booted_iff pulse).mp sound.booted
  have stops : process.loop.stopOutbox.stops.length = process.loop.stops.length + 1 := by
    simp [PollLoop.stopOutbox]
  refine { sound with
    loop := sound.loop.tail (show process.loop.step .stop = _ from rfl)
    booted := (booted_iff pulse).mpr ⟨connects, opened, closed.imp id (And.imp id kept)⟩
    calls := ?_
    drained := ?_
    ended := unended alive }
  · rw [stops, sound.calls, List.length_append, List.length_singleton]
  · intro index shutdown there past
    by_cases old : index < process.shutdowns.length
    · rw [List.getElem?_append_left old] at there
      obtain ⟨warned, resolved⟩ := sound.drained index shutdown there past
      refine ⟨warned, ?_⟩
      rw [PollLoop.stopOutbox, List.getElem?_append_left (sound.calls ▸ old)]
      exact resolved
    · rw [List.getElem?_append_right (by omega)] at there
      exact absurd (getElem?_singleton_inv there).2 past

theorem sound_register (sound : process.Sound) (alive : process.ended = none)
    (creating : process.boot = .creating) (secureContext : Bool) :
    Sound { process with
      boot := .connecting process.mongo.connects.length
      mongo := process.mongo.connectDb secureContext } := by
  obtain ⟨fresh, none⟩ : Booted process.mongo process.shutdowns .creating :=
    creating ▸ sound.booted
  have edge : Mongo.Edge process.mongo (.connectDb secureContext)
      (process.mongo.connectDb secureContext) := Mongo.edge_of_step rfl
  have apart : process.mongo.CallsApart (.connectDb secureContext) := by
    rw [fresh]
    rfl
  refine { sound with
    single := Mongo.single_step sound.single edge apart
    accounted := (Mongo.accounted_step sound.accounted edge).mpr trivial
    booted := ?_
    started := fun started => ?_
    ended := unended alive }
  · rw [fresh]
    exact ⟨rfl, none, .opening, rfl, rfl, rfl⟩
  · rw [sound.started started] at creating
    cases creating

theorem sound_step (sound : process.Sound) (alive : process.ended = none)
    (edge : Edge process action next) : next.Sound := by
  cases edge with
  | register secureContext creating => exact sound_register sound alive creating secureContext
  | mongo settling accepted => exact sound_mongo sound alive (Mongo.edge_of_step accepted) settling
  | connected connecting resolved =>
      rename_i call
      obtain ⟨rfl, none, state, connects, settled⟩ :
        Booted process.mongo process.shutdowns (.connecting call) := connecting ▸ sound.booted
      rw [connects] at resolved
      cases resolved
      refine { sound with
        booted := ⟨connects, settled.1, Or.inl settled.2⟩
        started := fun started => ?_ }
      rw [sound.started started] at connecting
      cases connecting
  | serverStarted starting =>
      have booted : Booted process.mongo process.shutdowns .starting := starting ▸ sound.booted
      exact { sound with
        booted := booted
        started := fun _ => rfl }
  | startFailed => exact { sound with ended := fun ended => by cases ended }
  | kill => exact { sound with ended := fun ended => by cases ended }
  | exit waits closed => exact { sound with ended := fun _ => ⟨_, _, _, waits, closed⟩ }
  | startOutbox served accepted =>
      exact sound_loop sound accepted (by simp) fun _ => served
  | loop callback accepted =>
      rename_i action next
      have silent : action ≠ .start ∧ action ≠ .stop := by
        constructor <;> rintro rfl <;> cases callback
      refine sound_loop sound accepted silent.2 fun started => sound.started ?_
      exact (PollLoop.started_kept (PollLoop.edge_of_step accepted) silent.1).symm.trans started
  | signal pulse => exact sound_signal sound alive pulse
  | serverStop waits resolved => exact sound_proceed sound alive waits ⟨_, resolved⟩ (by simp)
  | postServerStop waits =>
      have past := sound.drained _ _ waits (by simp)
      have shuts := List.mem_set (List.getElem?_eq_some_iff.mp waits).1
        (Shutdown.postServerStop process.mongo.closes.length)
      exact sound_closeDb (sound_proceed sound alive waits past (by simp)) alive shuts

theorem sound_of_reaches (reachable : Reaches step initial process) : process.Sound :=
  reachable.invariant sound_initial fun _ _ _ sound accepted =>
    sound_step sound (edge_of_step accepted).1 (edge_of_step accepted).2

/-! ### The calls that close the client -/

/-- The shutdown has called `closeDb`. -/
def isClosing : Shutdown → Bool
  | .postServerStop _ => true
  | .preServerStop | .serverStop => false

/-- Only shutdowns close the client of a process that has connected, each of them once. -/
def ClosesCounted (process : Process) : Prop :=
  hasPulse process.boot = true →
    process.mongo.closes.length = process.shutdowns.countP isClosing

/-- A shutdown that goes on to close the client is counted, and no other is. -/
theorem countP_isClosing_set {shutdowns : List Shutdown} {shutdown : Nat} {before : Shutdown}
    (there : shutdowns[shutdown]? = some before) (early : isClosing before = false)
    (after : Shutdown) :
    (shutdowns.set shutdown after).countP isClosing =
      shutdowns.countP isClosing + if isClosing after then 1 else 0 := by
  obtain ⟨bound, same⟩ := List.getElem?_eq_some_iff.mp there
  rw [List.countP_set bound, same, early]
  rfl

theorem closesCounted_step (sound : process.Sound) (counted : process.ClosesCounted)
    (edge : Edge process action next) : next.ClosesCounted := by
  intro pulse
  cases edge with
  | register => cases pulse
  | mongo settling accepted =>
      have connects := ((booted_iff pulse).mp sound.booted).connects
      obtain ⟨_, _, _, _, same⟩ :=
        resolved_mongo connects (Mongo.edge_of_step accepted) settling
      exact same.trans (counted pulse)
  | connected connecting resolved =>
      rename_i call
      obtain ⟨rfl, none, state, connects, settled⟩ :
        Booted process.mongo process.shutdowns (.connecting call) := connecting ▸ sound.booted
      rw [connects] at resolved
      cases resolved
      show process.mongo.closes.length = process.shutdowns.countP isClosing
      rw [settled.2, none]
      rfl
  | serverStarted starting => exact counted (starting ▸ rfl)
  | startFailed => exact counted pulse
  | startOutbox => exact counted pulse
  | loop => exact counted pulse
  | signal =>
      show process.mongo.closes.length =
        (process.shutdowns ++ [Shutdown.preServerStop]).countP isClosing
      rw [List.countP_append]
      exact counted pulse
  | serverStop waits =>
      show process.mongo.closes.length = (process.shutdowns.set _ _).countP isClosing
      rw [countP_isClosing_set waits rfl]
      exact counted pulse
  | postServerStop waits =>
      show process.mongo.closeDb.closes.length = (process.shutdowns.set _ _).countP isClosing
      rw [countP_isClosing_set waits rfl, Mongo.closeDb, List.length_append, counted pulse]
      rfl
  | exit => exact counted pulse
  | kill => exact counted pulse

theorem closesCounted_of_reaches (reachable : Reaches step initial process) :
    process.ClosesCounted := by
  refine reachable.induction (motive := ClosesCounted) (fun pulse => by cases pulse) ?_
  intro before action after reached counted accepted
  exact closesCounted_step (sound_of_reaches reached) counted (edge_of_step accepted).2

/-! ## The guarantees -/

/-- Until a shutdown closes it, a connected process holds its client. -/
theorem Sound.client_of_unclosed (sound : process.Sound)
    (connected : Connected process.mongo process.shutdowns) (unclosed : process.mongo.closes = []) :
    process.mongo.client = some 0 := by
  have held := sound.single.held 0 .resolved (by simp [connected.connects])
    (by simp [connected.connects]) rfl unclosed
  obtain ⟨client, isClient⟩ := Option.isSome_iff_exists.mp held
  have accounted := sound.accounted
  rw [Mongo.Accounted, connected.opened, isClient, Mongo.discarded, unclosed] at accounted
  have first : client = 0 := by simpa using accounted.mem_iff (a := client)
  rw [isClient, first]

theorem Sound.connected_of_started (sound : process.Sound)
    (started : process.loop.started = true) : Connected process.mongo process.shutdowns := by
  have pulse : hasPulse process.boot = true := by
    rw [sound.started started]
    rfl
  exact (booted_iff pulse).mp sound.booted

/-- A run starts only while the client is held. -/
theorem client_of_starts (reachable : Reaches step initial process)
    (accepted : process.step action = some next)
    (starts : process.loop.runsStarted < next.loop.runsStarted) :
    process.mongo.client = some 0 := by
  have sound := sound_of_reaches reachable
  have nextSound := sound_of_reaches (reachable.tail accepted)
  have ran : next.loop.runsStarted ≠ 0 := by omega
  have served := nextSound.started (PollLoop.started_of_runs nextSound.loop ran)
  obtain ⟨uncalled, pulse⟩ : process.loop.stops = [] ∧ hasPulse process.boot = true := by
    cases (edge_of_step accepted).2 with
    | startOutbox isServed goes =>
        exact ⟨PollLoop.uncalled_of_runs sound.loop goes starts, isServed ▸ rfl⟩
    | loop callback goes =>
        exact ⟨PollLoop.uncalled_of_runs sound.loop goes starts, served ▸ rfl⟩
    | _ => exact absurd starts (lt_irrefl _)
  have connected := (booted_iff pulse).mp sound.booted
  have unshut : process.shutdowns = [] := by
    rw [← List.length_eq_zero_iff, ← sound.calls, uncalled]
    rfl
  refine sound.client_of_unclosed connected (connected.closed.resolve_right ?_)
  rintro ⟨_, close, member⟩
  rw [unshut] at member
  cases member

/-- A run that is in flight has its client, or the wait for it was given up. -/
theorem Sound.client_of_inFlight (sound : process.Sound) {run : RunId}
    (inFlight : (process.loop.run run).inFlight = true) :
    process.mongo.client = some 0 ∨ .drainTimeout ∈ process.loop.log := by
  have coherent := PollLoop.coherent_of_reaches sound.loop
  have started : process.loop.started = true := by
    by_contra unstarted
    have current := coherent.current run inFlight
    rw [coherent.unstarted (by simpa using unstarted)] at current
    cases current
  have connected := sound.connected_of_started started
  rcases connected.closed with unclosed | ⟨_, close, member⟩
  · exact Or.inl (sound.client_of_unclosed connected unclosed)
  · obtain ⟨index, there⟩ := List.getElem?_of_mem member
    obtain ⟨warned, resolved⟩ := sound.drained index _ there (by simp)
    exact Or.inr (PollLoop.warned_of_inFlight sound.loop inFlight resolved)

/-- The one shutdown of a process has closed the client when it ends. -/
theorem Sound.closed_of_single (sound : process.Sound) (counted : process.ClosesCounted)
    (ended : process.ended = some .shutDown) (single : process.shutdowns.length = 1)
    (discarded : process.mongo.discarded = [0]) : process.mongo.closes = [.closed (some 0)] := by
  obtain ⟨shutdown, close, openClient, there, closed⟩ := sound.ended ended
  have pulse := pulse_of_shutdowns sound.booted (List.ne_nil_of_mem (List.mem_of_getElem? there))
  have few : process.mongo.closes.length ≤ 1 := by
    rw [counted pulse, ← single]
    exact List.countP_le_length
  have bound := (List.getElem?_eq_some_iff.mp closed).1
  obtain ⟨call, only⟩ := List.length_eq_one_iff.mp (Nat.le_antisymm few (by omega))
  rw [only] at closed
  obtain ⟨_, rfl⟩ := getElem?_singleton_inv closed
  rw [Mongo.discarded, only] at discarded
  cases openClient with
  | none => cases discarded
  | some client =>
      cases discarded
      exact only

/-- Whenever signals arrive, the process opens one client at most; no run starts unless that
client is connected, with its indexes created, and held; a run in flight has the client unless
its wait was given up; and a shutdown that ends has taken the client away and given it to one
call of `closeDb`, which has closed it if there was no other shutdown, and leaves no run that its
warning does not announce. -/
theorem runs_have_the_client (reachable : Reaches step initial process) :
    process.mongo.opened ≤ 1 ∧
    (process.loop.runsStarted ≠ 0 → process.mongo.connects = [.resolved]) ∧
    (∀ action next, process.step action = some next →
      process.loop.runsStarted < next.loop.runsStarted → process.mongo.client = some 0) ∧
    (∀ run, (process.loop.run run).inFlight = true →
      process.mongo.client = some 0 ∨ .drainTimeout ∈ process.loop.log) ∧
    (process.ended = some .shutDown →
      process.mongo.client = none ∧ process.mongo.discarded = [0] ∧
        (process.shutdowns.length = 1 → process.mongo.closes = [.closed (some 0)]) ∧
        ∀ run, (process.loop.run run).inFlight = true → .drainTimeout ∈ process.loop.log) := by
  have sound := sound_of_reaches reachable
  refine ⟨?_, fun ran => ?_, fun action next accepted starts =>
    client_of_starts reachable accepted starts, fun run inFlight =>
    sound.client_of_inFlight inFlight, fun ended => ?_⟩
  · by_cases pulse : hasPulse process.boot = true
    · exact ((booted_iff pulse).mp sound.booted).opened.le
    · have booted := sound.booted
      cases boot : process.boot with
      | creating =>
          obtain ⟨fresh, _⟩ := boot ▸ booted
          rw [fresh]
          exact Nat.zero_le 1
      | connecting call =>
          obtain ⟨_, _, state, _, connecting⟩ := boot ▸ booted
          cases state with
          | opening => exact connecting.1 ▸ Nat.zero_le 1
          | indexing => exact connecting.1.le
          | resolved => exact connecting.1.le
          | discarding => exact connecting
          | rejected => exact connecting
          | rejectedWithClient => exact connecting
      | starting => exact absurd (boot ▸ rfl) pulse
      | served => exact absurd (boot ▸ rfl) pulse
  · exact (sound.connected_of_started (PollLoop.started_of_runs sound.loop ran)).connects
  · obtain ⟨shutdown, close, openClient, there, closed⟩ := sound.ended ended
    have pulse := pulse_of_shutdowns sound.booted
      (List.ne_nil_of_mem (List.mem_of_getElem? there))
    have connected := (booted_iff pulse).mp sound.booted
    have called := List.ne_nil_of_mem (List.mem_of_getElem? closed)
    obtain ⟨free, _⟩ := connected.closed.resolve_left called
    obtain ⟨warned, resolved⟩ := sound.drained shutdown _ there (by simp)
    have accounted := sound.accounted
    rw [Mongo.Accounted, free, connected.opened] at accounted
    have discarded := List.perm_singleton.mp accounted
    refine ⟨free, discarded, fun single => ?_, fun run inFlight =>
      PollLoop.warned_of_inFlight sound.loop inFlight resolved⟩
    exact sound.closed_of_single (closesCounted_of_reaches reachable) ended single discarded

namespace Sample

/-- A signal arrives during the first run, and the wait for it is given up. -/
def abandonedRun : List Action :=
  [ .register true, .mongo (.opens 0 .connected), .mongo (.indexes 0 false), .connected,
    .serverStarted, .startOutbox, .signal, .loop (.drainTimeout 0), .loop (.resume 0),
    .serverStop 0, .postServerStop 0, .mongo (.closes 0 false), .exit 0 ]

def afterAbandonedRun : Process := (runActions step initial abandonedRun).get (by decide)

end Sample

/-- The client is closed while the run is in flight, and the warning has announced it. -/
theorem runs_have_the_client_sample :
    (Sample.afterAbandonedRun.loop.run 0).inFlight = true ∧
      Sample.afterAbandonedRun.mongo.closes = [.closed (some 0)] ∧
      .drainTimeout ∈ Sample.afterAbandonedRun.loop.log := by
  have reachable : Reaches step initial Sample.afterAbandonedRun :=
    ⟨Sample.abandonedRun, (Option.some_get _).symm⟩
  have inFlight : (Sample.afterAbandonedRun.loop.run 0).inFlight = true := by decide
  obtain ⟨_, _, closed, announced⟩ := (runs_have_the_client reachable).2.2.2.2 (by decide)
  exact ⟨inFlight, closed (by decide), announced 0 inFlight⟩

/-- The second of two shutdowns ends the process while the first still waits for the client. -/
example : (runActions step initial
    [ .register true, .mongo (.opens 0 .connected), .mongo (.indexes 0 false), .connected,
      .signal, .signal, .serverStop 0, .serverStop 1, .postServerStop 0, .postServerStop 1,
      .mongo (.closes 1 false), .exit 1 ]).map
      (fun process => (process.ended, process.mongo.closes)) =
    some (some .shutDown, [.closing (some 0), .closed none]) := by
  decide

/-- A signal during startup closes the client; the loop is then not started any more. -/
example : (runActions step initial
    [ .register true, .mongo (.opens 0 .connected), .mongo (.indexes 0 false), .connected, .signal,
      .serverStop 0, .postServerStop 0, .serverStarted, .startOutbox ]).map
      (fun process => (process.mongo.client, process.loop.runsStarted)) = some (none, 0) := by
  decide

end Process

end ObjectProcessor
