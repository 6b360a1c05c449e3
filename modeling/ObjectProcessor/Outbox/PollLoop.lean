import Mathlib.Logic.Function.Basic
import ObjectProcessor.Library.Transition

/-!
# The poll loop

The loop publishes, sleeps for an interval and starts again until it is stopped.  Its
state is a flag, a timer handle and the promise of the last run; the runtime adds the
timers that are pending, the runs and the calls of `stopOutbox`.

An action is a stretch of code that runs to completion.  What a run awaits, and the
order in which promises and timers call back, is left open.
-/

namespace ObjectProcessor

open Library

abbrev TimerId := Nat

abbrev RunId := Nat

/-- Where a call of `runOutbox` is. -/
inductive RunState where
  | unstarted
  /-- `publishPendingMessages` has not settled. -/
  | publishing
  /-- It has settled, and `runOutbox` is to go on. -/
  | settled (failed : Bool)
  | done
  deriving DecidableEq, Repr

def RunState.inFlight : RunState → Bool
  | .publishing | .settled _ => true
  | .unstarted | .done => false

/-- A call of `stopOutbox`. -/
inductive StopCall where
  /-- It waits for a run: whether its drain timer is pending, and how the race ended. -/
  | waiting (run : RunId) (drainTimer : Bool) (drained : Option Bool)
  | resolved (warned : Bool)
  deriving DecidableEq, Repr

inductive PollLog where
  /-- `Outbox processing failed` -/
  | runFailed (run : RunId)
  /-- `Outbox run did not finish before shutdown` -/
  | drainTimeout
  deriving DecidableEq, Repr

structure PollLoop where
  outboxTimer : Option TimerId
  currentRun : Option RunId
  isStopping : Bool
  /-- The pending timers that call `startOutbox`. -/
  timers : List TimerId
  nextTimer : TimerId
  run : RunId → RunState
  runsStarted : Nat
  stops : List StopCall
  /-- `src/index.js` has called `startOutbox`. -/
  started : Bool
  log : List PollLog

namespace PollLoop

inductive Action where
  /-- The call of `src/index.js`. -/
  | start
  /-- A pending timer calls `startOutbox`. -/
  | fire (timer : TimerId)
  /-- `publishPendingMessages` resolves or throws. -/
  | settle (run : RunId) (failed : Bool)
  /-- `runOutbox` goes on to its end. -/
  | finish (run : RunId)
  | stop
  /-- The run a call of `stopOutbox` waits for has ended, and wins the race if it can. -/
  | drain (call : Nat)
  /-- The drain timer of a call fires. -/
  | drainTimeout (call : Nat)
  /-- A call of `stopOutbox` whose race is decided goes on to its end. -/
  | resume (call : Nat)
  deriving DecidableEq, Repr

/-- The module when it is loaded. -/
def initial : PollLoop where
  outboxTimer := none
  currentRun := none
  isStopping := false
  timers := []
  nextTimer := 0
  run := fun _ => .unstarted
  runsStarted := 0
  stops := []
  started := false
  log := []

variable (loop : PollLoop)

def scheduleNextRun : PollLoop :=
  if loop.isStopping then loop
  else { loop with
    outboxTimer := some loop.nextTimer
    timers := loop.timers ++ [loop.nextTimer]
    nextTimer := loop.nextTimer + 1 }

/-- `runOutbox`, up to its first `await`. -/
def runOutbox : PollLoop :=
  { loop with
    run := Function.update loop.run loop.runsStarted .publishing
    runsStarted := loop.runsStarted + 1
    currentRun := some loop.runsStarted }

def startOutbox : PollLoop := if loop.isStopping then loop else loop.runOutbox

/-- The `catch` and `finally` of `runOutbox`. -/
def finishRun (run : RunId) (failed : Bool) : PollLoop :=
  let logged := { loop with log := loop.log ++ if failed then [PollLog.runFailed run] else [] }
  let scheduled := logged.scheduleNextRun
  { scheduled with run := Function.update scheduled.run run .done }

/-- `clearTimeout(handle)`: a handle that is no longer pending is ignored. -/
def clearTimeout (handle : Option TimerId) (timers : List TimerId) : List TimerId :=
  timers.filter fun timer => handle ≠ some timer

/-- `stopOutbox`, up to its `await` or to its early return. -/
def stopOutbox : PollLoop :=
  { loop with
    isStopping := true
    timers := clearTimeout loop.outboxTimer loop.timers
    outboxTimer := none
    stops := loop.stops ++
      [loop.currentRun.elim (.resolved false) fun run => .waiting run true none] }

def step : Action → Option PollLoop
  | .start => if loop.started then none else some { loop with started := true }.startOutbox
  | .fire timer =>
      if timer ∈ loop.timers then
        some { loop with timers := loop.timers.erase timer }.startOutbox
      else none
  | .settle run failed =>
      if loop.run run = .publishing then
        some { loop with run := Function.update loop.run run (.settled failed) }
      else none
  | .finish run =>
      match loop.run run with
      | .settled failed => some (loop.finishRun run failed)
      | _ => none
  | .stop => some loop.stopOutbox
  | .drain call =>
      match loop.stops[call]? with
      | some (.waiting run drainTimer none) =>
          if loop.run run = .done then
            some { loop with stops := loop.stops.set call (.waiting run drainTimer (some true)) }
          else none
      | _ => none
  | .drainTimeout call =>
      match loop.stops[call]? with
      | some (.waiting run true drained) =>
          some { loop with
            stops := loop.stops.set call (.waiting run false (drained.or (some false))) }
      | _ => none
  | .resume call =>
      match loop.stops[call]? with
      | some (.waiting _ _ (some drained)) =>
          some { loop with
            stops := loop.stops.set call (.resolved !drained)
            log := loop.log ++ if drained then [] else [PollLog.drainTimeout] }
      | _ => none

/-! Scheduling touches the timers only. -/

@[simp]
theorem scheduleNextRun_log : loop.scheduleNextRun.log = loop.log := by
  unfold scheduleNextRun
  split <;> rfl

@[simp]
theorem scheduleNextRun_stops : loop.scheduleNextRun.stops = loop.stops := by
  unfold scheduleNextRun
  split <;> rfl

@[simp]
theorem scheduleNextRun_runsStarted : loop.scheduleNextRun.runsStarted = loop.runsStarted := by
  unfold scheduleNextRun
  split <;> rfl

/-! ## What a step can do -/

/-- What an accepted step has required, and where it leads. -/
inductive Edge (loop : PollLoop) : Action → PollLoop → Prop where
  | start (first : loop.started = false) :
      Edge loop .start { loop with started := true }.startOutbox
  | fire {timer : TimerId} (pending : timer ∈ loop.timers) :
      Edge loop (.fire timer) { loop with timers := loop.timers.erase timer }.startOutbox
  | settle {run : RunId} {failed : Bool} (publishing : loop.run run = .publishing) :
      Edge loop (.settle run failed)
        { loop with run := Function.update loop.run run (.settled failed) }
  | finish {run : RunId} {failed : Bool} (settled : loop.run run = .settled failed) :
      Edge loop (.finish run) (loop.finishRun run failed)
  | stop : Edge loop .stop loop.stopOutbox
  | drain {call : Nat} {run : RunId} {drainTimer : Bool}
      (waits : loop.stops[call]? = some (.waiting run drainTimer none))
      (done : loop.run run = .done) :
      Edge loop (.drain call)
        { loop with stops := loop.stops.set call (.waiting run drainTimer (some true)) }
  | drainTimeout {call : Nat} {run : RunId} {drained : Option Bool}
      (waits : loop.stops[call]? = some (.waiting run true drained)) :
      Edge loop (.drainTimeout call)
        { loop with
          stops := loop.stops.set call (.waiting run false (drained.or (some false))) }
  | resume {call : Nat} {run : RunId} {drainTimer drained : Bool}
      (waits : loop.stops[call]? = some (.waiting run drainTimer (some drained))) :
      Edge loop (.resume call)
        { loop with
          stops := loop.stops.set call (.resolved !drained)
          log := loop.log ++ if drained then [] else [PollLog.drainTimeout] }

variable {loop next : PollLoop} {action : Action}

theorem edge_of_step (accepted : loop.step action = some next) : Edge loop action next := by
  cases action with
  | start =>
      simp only [step, Option.ite_none_left_eq_some, Option.some.injEq] at accepted
      obtain ⟨first, rfl⟩ := accepted
      exact .start (by simpa using first)
  | fire timer =>
      simp only [step, Option.ite_none_right_eq_some, Option.some.injEq] at accepted
      obtain ⟨pending, rfl⟩ := accepted
      exact .fire pending
  | settle run failed =>
      simp only [step, Option.ite_none_right_eq_some, Option.some.injEq] at accepted
      obtain ⟨publishing, rfl⟩ := accepted
      exact .settle publishing
  | finish run =>
      simp only [step] at accepted
      split at accepted
      · rename_i failed settled
        cases accepted
        exact .finish settled
      · cases accepted
  | stop =>
      cases accepted
      exact .stop
  | drain call =>
      simp only [step] at accepted
      split at accepted
      · rename_i run drainTimer found
        simp only [Option.ite_none_right_eq_some, Option.some.injEq] at accepted
        obtain ⟨done, rfl⟩ := accepted
        exact .drain found done
      · cases accepted
  | drainTimeout call =>
      simp only [step] at accepted
      split at accepted
      · rename_i run drained found
        cases accepted
        exact .drainTimeout found
      · cases accepted
  | resume call =>
      simp only [step] at accepted
      split at accepted
      · rename_i run drainTimer drained found
        cases accepted
        exact .resume found
      · cases accepted

/-! ## The invariant -/

/-- The last run has not ended. -/
def busy (loop : PollLoop) : Bool := loop.currentRun.any fun run => (loop.run run).inFlight

/-- A call waits for the last run, and has seen it end if the race says so. -/
def Sound (loop : PollLoop) : StopCall → Prop
  | .waiting run _ drained =>
      loop.currentRun = some run ∧ (drained = some true → loop.run run = .done)
  | .resolved warned => warned = false → loop.busy = false

structure Coherent (loop : PollLoop) : Prop where
  flag : loop.isStopping = true ↔ loop.stops ≠ []
  current : ∀ run, (loop.run run).inFlight = true → loop.currentRun = some run
  timer : loop.timers = [] ∨ ∃ timer, loop.timers = [timer] ∧ loop.outboxTimer = some timer
  exclusive : loop.timers ≠ [] →
    loop.busy = false ∧ loop.isStopping = false ∧ loop.started = true
  alive : loop.started = true → loop.isStopping = false → loop.busy = true ∨ loop.timers ≠ []
  unstarted : loop.started = false → loop.currentRun = none
  calls : ∀ call ∈ loop.stops, loop.Sound call

theorem coherent_initial : Coherent initial := by
  constructor <;> simp [initial, RunState.inFlight]

theorem busy_of_inFlight (coherent : Coherent loop) {run : RunId}
    (inFlight : (loop.run run).inFlight = true) : loop.busy = true := by
  rw [busy, coherent.current run inFlight]
  exact inFlight

/-- No run but the last one can be in flight. -/
theorem inFlight_of_quiet (coherent : Coherent loop) (quiet : loop.busy = false) (run : RunId) :
    (loop.run run).inFlight = false := by
  by_contra inFlight
  rw [busy_of_inFlight coherent (by simpa using inFlight)] at quiet
  cases quiet

theorem timers_of_busy (coherent : Coherent loop) (flies : loop.busy = true) :
    loop.timers = [] := by
  by_contra pending
  rw [(coherent.exclusive pending).1] at flies
  cases flies

theorem timers_of_unstarted (coherent : Coherent loop) (first : loop.started = false) :
    loop.timers = [] := by
  by_contra pending
  rw [(coherent.exclusive pending).2.2] at first
  cases first

theorem stops_of_running (coherent : Coherent loop) (running : loop.isStopping = false) :
    loop.stops = [] := by
  by_contra called
  rw [coherent.flag.mpr called] at running
  cases running

/-- A run that is to go on is the last one. -/
theorem last_of_settled (coherent : Coherent loop) {run : RunId} {failed : Bool}
    (settled : loop.run run = .settled failed) :
    loop.currentRun = some run ∧ loop.busy = true := by
  have inFlight : (loop.run run).inFlight = true := by
    rw [settled]
    rfl
  exact ⟨coherent.current run inFlight, busy_of_inFlight coherent inFlight⟩

/-- A run starts while no other is in flight and no timer is pending. -/
theorem coherent_runOutbox (running : loop.isStopping = false) (uncalled : loop.stops = [])
    (quiet : ∀ run, (loop.run run).inFlight = false) (timers : loop.timers = [])
    (started : loop.started = true) : Coherent loop.runOutbox := by
  constructor
  · simp [runOutbox, running, uncalled]
  · intro run inFlight
    by_cases same : run = loop.runsStarted
    · simp [runOutbox, same]
    · simp [runOutbox, Function.update_of_ne same, quiet run] at inFlight
  · exact Or.inl timers
  · intro pending
    exact absurd timers pending
  · intro _ _
    simp [runOutbox, busy, RunState.inFlight]
  · intro unstarted
    simp [runOutbox, started] at unstarted
  · simp [runOutbox, uncalled]

theorem coherent_start (coherent : Coherent loop) (first : loop.started = false) :
    Coherent { loop with started := true }.startOutbox := by
  have idle := coherent.unstarted first
  have timers := timers_of_unstarted coherent first
  have still := inFlight_of_quiet coherent (show loop.busy = false by simp [busy, idle])
  by_cases stopping : loop.isStopping = true
  · rw [startOutbox, if_pos stopping]
    exact { coherent with
      exclusive := fun pending => absurd timers pending
      alive := fun _ running => absurd (stopping.symm.trans running) (by decide)
      unstarted := fun _ => idle }
  · have running : loop.isStopping = false := by simpa using stopping
    have uncalled := stops_of_running coherent running
    rw [startOutbox, if_neg stopping]
    exact coherent_runOutbox running uncalled still timers rfl

theorem coherent_fire (coherent : Coherent loop) {timer : TimerId}
    (pending : timer ∈ loop.timers) :
    Coherent { loop with timers := loop.timers.erase timer }.startOutbox := by
  obtain ⟨quiet, running, started⟩ := coherent.exclusive (List.ne_nil_of_mem pending)
  have still := inFlight_of_quiet coherent quiet
  have uncalled := stops_of_running coherent running
  have timers : loop.timers.erase timer = [] := by
    rcases coherent.timer with none | ⟨only, timers, _⟩
    · simp [none]
    · rw [timers] at pending ⊢
      simp [List.mem_singleton.mp pending]
  rw [startOutbox, if_neg (by simp [running])]
  exact coherent_runOutbox running uncalled still timers started

/-- A run stays in flight when what it awaits settles. -/
theorem inFlight_settle {run : RunId} {failed : Bool} (publishing : loop.run run = .publishing)
    (other : RunId) : (Function.update loop.run run (.settled failed) other).inFlight =
      (loop.run other).inFlight := by
  by_cases same : other = run
  · simp [same, publishing, RunState.inFlight]
  · rw [Function.update_of_ne same]

theorem busy_settle {run : RunId} {failed : Bool} (publishing : loop.run run = .publishing) :
    busy { loop with run := Function.update loop.run run (.settled failed) } = loop.busy := by
  simp only [busy, inFlight_settle publishing]

theorem coherent_settle (coherent : Coherent loop) {run : RunId} {failed : Bool}
    (publishing : loop.run run = .publishing) :
    Coherent { loop with run := Function.update loop.run run (.settled failed) } := by
  have sameBusy : busy { loop with run := Function.update loop.run run (.settled failed) } =
      loop.busy := busy_settle publishing
  constructor
  · exact coherent.flag
  · intro other inFlight
    rw [inFlight_settle publishing] at inFlight
    exact coherent.current other inFlight
  · exact coherent.timer
  · exact fun pending => sameBusy ▸ coherent.exclusive pending
  · exact fun started running => sameBusy ▸ coherent.alive started running
  · exact coherent.unstarted
  · intro call member
    have sound := coherent.calls call member
    cases call with
    | waiting other drainTimer drained =>
        refine ⟨sound.1, fun won => ?_⟩
        have done := sound.2 won
        have apart : other ≠ run := fun same => by
          rw [same, publishing] at done
          cases done
        simpa [Function.update_of_ne apart] using done
    | resolved warned => exact fun drained => sameBusy.trans (sound drained)

/-- The last run ends, and the next one is scheduled unless the loop stops. -/
theorem coherent_finish (coherent : Coherent loop) {run : RunId} {failed : Bool}
    (settled : loop.run run = .settled failed) : Coherent (loop.finishRun run failed) := by
  obtain ⟨isLast, wasBusy⟩ := last_of_settled coherent settled
  have timers := timers_of_busy coherent wasBusy
  have ended : ∀ other, (Function.update loop.run run .done other).inFlight = false := by
    intro other
    by_cases same : other = run
    · simp [same, RunState.inFlight]
    · rw [Function.update_of_ne same]
      by_contra flies
      have isOther := coherent.current other (by simpa using flies)
      rw [isLast, Option.some.injEq] at isOther
      exact same isOther.symm
  have calls : ∀ call ∈ loop.stops, ∀ after : PollLoop, after.currentRun = loop.currentRun →
      after.run = Function.update loop.run run .done → after.Sound call := by
    intro call member after sameRun sameRuns
    have sound := coherent.calls call member
    cases call with
    | waiting other drainTimer drained =>
        refine ⟨sameRun.trans sound.1, fun _ => ?_⟩
        have sameLast := isLast.symm.trans sound.1
        rw [Option.some.injEq] at sameLast
        simp [sameRuns, sameLast]
    | resolved warned =>
        intro _
        simp [busy, sameRun, sameRuns, isLast, RunState.inFlight]
  by_cases stopping : loop.isStopping = true
  · simp only [finishRun, scheduleNextRun, stopping, ↓reduceIte]
    constructor
    · exact ⟨fun _ => coherent.flag.mp stopping, fun _ => rfl⟩
    · exact fun other flies => absurd flies (by simp [ended other])
    · exact Or.inl timers
    · exact fun pending => absurd timers pending
    · exact fun _ running => Bool.noConfusion running
    · exact coherent.unstarted
    · exact fun call member => calls call member _ rfl rfl
  · have running : loop.isStopping = false := by simpa using stopping
    simp only [finishRun, scheduleNextRun, running, Bool.false_eq_true, ↓reduceIte]
    have started : loop.started = true := by
      by_contra unstarted
      rw [coherent.unstarted (by simpa using unstarted)] at isLast
      cases isLast
    constructor
    · exact ⟨fun impossible => Bool.noConfusion impossible, fun called =>
        absurd (coherent.flag.mpr called) stopping⟩
    · exact fun other flies => absurd flies (by simp [ended other])
    · exact Or.inr ⟨loop.nextTimer, by simp [timers], rfl⟩
    · intro _
      exact ⟨by simp [busy, isLast, RunState.inFlight], rfl, started⟩
    · exact fun _ _ => Or.inr (by simp)
    · exact coherent.unstarted
    · exact fun call member => calls call member _ rfl rfl

theorem coherent_stop (coherent : Coherent loop) : Coherent loop.stopOutbox := by
  have timers : clearTimeout loop.outboxTimer loop.timers = [] := by
    rcases coherent.timer with none | ⟨timer, only, handle⟩
    · simp [clearTimeout, none]
    · simp [clearTimeout, only, handle]
  constructor
  · simp [stopOutbox]
  · exact coherent.current
  · exact Or.inl timers
  · exact fun pending => absurd timers pending
  · intro _ running
    cases running
  · exact coherent.unstarted
  · intro call member
    rcases List.mem_append.mp member with old | new
    · exact coherent.calls call old
    · cases List.mem_singleton.mp new
      cases last : loop.currentRun with
      | none => exact fun _ => by simp [stopOutbox, busy, last]
      | some run => exact ⟨last, by simp⟩

/-- A call of `stopOutbox` goes on; nothing else changes. -/
theorem coherent_call (coherent : Coherent loop) (called : loop.stops ≠ []) {call : Nat}
    {answer : StopCall} (sound : loop.Sound answer) (log : List PollLog) :
    Coherent { loop with stops := loop.stops.set call answer, log := log } := by
  refine { coherent with flag := ?_, calls := ?_ }
  · exact ⟨fun _ => by simpa using called, fun _ => coherent.flag.mpr called⟩
  · intro other member
    rcases List.mem_or_eq_of_mem_set member with old | rfl
    · exact coherent.calls other old
    · exact sound

theorem coherent_step (coherent : Coherent loop) (edge : Edge loop action next) :
    Coherent next := by
  cases edge with
  | start first => exact coherent_start coherent first
  | fire pending => exact coherent_fire coherent pending
  | settle publishing => exact coherent_settle coherent publishing
  | finish settled => exact coherent_finish coherent settled
  | stop => exact coherent_stop coherent
  | drain waits done =>
      have called := List.mem_of_getElem? waits
      refine coherent_call coherent (List.ne_nil_of_mem called) ?_ _
      exact ⟨(coherent.calls _ called).1, fun _ => done⟩
  | drainTimeout waits =>
      rename_i drained
      have called := List.mem_of_getElem? waits
      have sound := coherent.calls _ called
      refine coherent_call coherent (List.ne_nil_of_mem called) ?_ _
      refine ⟨sound.1, fun won => sound.2 ?_⟩
      cases drained with
      | none => cases won
      | some value => exact won
  | resume waits =>
      have called := List.mem_of_getElem? waits
      obtain ⟨isLast, ended⟩ := coherent.calls _ called
      refine coherent_call coherent (List.ne_nil_of_mem called) ?_ _
      intro unwarned
      have won := ended (by simpa using unwarned)
      simp [busy, isLast, won, RunState.inFlight]

theorem coherent_of_reaches (reachable : Reaches step initial loop) : Coherent loop :=
  reachable.invariant coherent_initial fun _ _ _ coherent accepted =>
    coherent_step coherent (edge_of_step accepted)

end PollLoop

end ObjectProcessor
