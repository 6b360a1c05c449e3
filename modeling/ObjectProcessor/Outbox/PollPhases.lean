import ObjectProcessor.Library.Collection
import ObjectProcessor.Outbox.PollLoop

/-!
# The phases of the poll loop

What the loop is for needs neither timers nor promises: it runs or sleeps until it is
stopped.  The module refines that description, and its guarantees follow.
-/

namespace ObjectProcessor

open Library

namespace PollLoop

variable {loop next : PollLoop} {action : Action}

/-- A loop runs or sleeps until it is stopped, and then only lets its last run end. -/
inductive Phase where
  | unstarted
  | running
  | waiting
  | stopping
  | stopped
  deriving DecidableEq, Repr

def Phase.ended : Phase → Bool
  | .stopping | .stopped => true
  | .unstarted | .running | .waiting => false

/-- The abstract loop: its phase, and how many runs it has started. -/
structure Spec where
  phase : Phase
  runs : Nat

inductive Moves : Spec → Spec → Prop where
  | stays (spec : Spec) : Moves spec spec
  | begins {phase : Phase} {runs : Nat} (quiet : phase = .unstarted ∨ phase = .waiting) :
      Moves ⟨phase, runs⟩ ⟨.running, runs + 1⟩
  | sleeps {runs : Nat} : Moves ⟨.running, runs⟩ ⟨.waiting, runs⟩
  | stopsRunning {runs : Nat} : Moves ⟨.running, runs⟩ ⟨.stopping, runs⟩
  | stopsQuiet {phase : Phase} {runs : Nat} (quiet : phase = .unstarted ∨ phase = .waiting) :
      Moves ⟨phase, runs⟩ ⟨.stopped, runs⟩
  | drains {runs : Nat} : Moves ⟨.stopping, runs⟩ ⟨.stopped, runs⟩

/-- A loop that has been stopped starts nothing, and once it rests it rests for good. -/
theorem Moves.ended {first last : Spec} (moves : Relation.ReflTransGen Moves first last)
    (ended : first.phase.ended = true) :
    last.phase.ended = true ∧ last.runs = first.runs ∧
      (first.phase = .stopped → last.phase = .stopped) := by
  induction moves with
  | refl => exact ⟨ended, rfl, id⟩
  | tail _ move ih =>
      obtain ⟨still, runs, rests⟩ := ih
      cases move with
      | stays => exact ⟨still, runs, rests⟩
      | begins quiet => rcases quiet with rfl | rfl <;> cases still
      | sleeps => cases still
      | stopsRunning => cases still
      | stopsQuiet => exact ⟨rfl, runs, fun _ => rfl⟩
      | drains => exact ⟨rfl, runs, fun _ => rfl⟩

/-- The phase a state of the module is in. -/
def phase (loop : PollLoop) : Phase :=
  if loop.isStopping then if loop.busy then .stopping else .stopped
  else if loop.busy then .running
  else if loop.timers = [] then .unstarted else .waiting

def spec (loop : PollLoop) : Spec := ⟨loop.phase, loop.runsStarted⟩

theorem phase_ended : loop.phase.ended = loop.isStopping := by
  unfold phase
  by_cases stopping : loop.isStopping = true
  · rw [if_pos stopping, stopping]
    split <;> rfl
  · have running : loop.isStopping = false := by simpa using stopping
    rw [if_neg stopping, running]
    split
    · rfl
    · split <;> rfl

theorem moves_start (coherent : Coherent loop) (first : loop.started = false) :
    Moves loop.spec { loop with started := true }.startOutbox.spec := by
  by_cases stopping : loop.isStopping = true
  · rw [startOutbox, if_pos stopping]
    exact .stays _
  · have idle := coherent.unstarted first
    have timers := timers_of_unstarted coherent first
    have before : loop.phase = .unstarted := by simp [phase, stopping, busy, idle, timers]
    rw [startOutbox, if_neg stopping, spec, before]
    have after : phase { loop with started := true }.runOutbox = .running := by
      simp [phase, runOutbox, stopping, busy, RunState.inFlight]
    rw [spec, after]
    exact .begins (Or.inl rfl)

theorem moves_fire (coherent : Coherent loop) {timer : TimerId} (pending : timer ∈ loop.timers) :
    Moves loop.spec { loop with timers := loop.timers.erase timer }.startOutbox.spec := by
  have some := List.ne_nil_of_mem pending
  obtain ⟨quiet, running, _⟩ := coherent.exclusive some
  have before : loop.phase = .waiting := by simp [phase, running, quiet, some]
  have after : phase { loop with timers := loop.timers.erase timer }.runOutbox = .running := by
    simp [phase, runOutbox, running, busy, RunState.inFlight]
  rw [startOutbox, if_neg (by simp [running]), spec, before, spec, after]
  exact .begins (Or.inr rfl)

theorem moves_settle {run : RunId} {failed : Bool} (publishing : loop.run run = .publishing) :
    Moves loop.spec
      (spec { loop with run := Function.update loop.run run (.settled failed) }) := by
  have sameBusy : busy { loop with run := Function.update loop.run run (.settled failed) } =
      loop.busy := busy_settle publishing
  have same : phase { loop with run := Function.update loop.run run (.settled failed) } =
      loop.phase := by
    simp only [phase, sameBusy]
  rw [spec, spec, same]
  exact .stays _

theorem moves_finish (coherent : Coherent loop) {run : RunId} {failed : Bool}
    (settled : loop.run run = .settled failed) :
    Moves loop.spec (loop.finishRun run failed).spec := by
  obtain ⟨isLast, wasBusy⟩ := last_of_settled coherent settled
  have started : (loop.finishRun run failed).runsStarted = loop.runsStarted := by
    simp [finishRun]
  by_cases stopping : loop.isStopping = true
  · have before : loop.phase = .stopping := by simp [phase, stopping, wasBusy]
    have after : (loop.finishRun run failed).phase = .stopped := by
      simp [phase, finishRun, scheduleNextRun, stopping, busy, isLast, RunState.inFlight]
    rw [spec, before, spec, after, started]
    exact .drains
  · have before : loop.phase = .running := by simp [phase, stopping, wasBusy]
    have after : (loop.finishRun run failed).phase = .waiting := by
      simp [phase, finishRun, scheduleNextRun, stopping, busy, isLast, RunState.inFlight]
    rw [spec, before, spec, after, started]
    exact .sleeps

theorem moves_stop (loop : PollLoop) : Moves loop.spec loop.stopOutbox.spec := by
  have after : loop.stopOutbox.phase = if loop.busy then .stopping else .stopped := rfl
  rw [spec, spec, after]
  by_cases flies : loop.busy = true
  · rw [if_pos flies]
    by_cases stopping : loop.isStopping = true
    · rw [phase, if_pos stopping, if_pos flies]
      exact .stays _
    · rw [phase, if_neg stopping, if_pos flies]
      exact .stopsRunning
  · rw [if_neg flies]
    by_cases stopping : loop.isStopping = true
    · rw [phase, if_pos stopping, if_neg flies]
      exact .stays _
    · rw [phase, if_neg stopping, if_neg flies]
      split
      · exact .stopsQuiet (Or.inl rfl)
      · exact .stopsQuiet (Or.inr rfl)

/-- Every step of the module is a move of the abstract loop. -/
theorem moves_of_edge (coherent : Coherent loop) (edge : Edge loop action next) :
    Moves loop.spec next.spec := by
  cases edge with
  | start first => exact moves_start coherent first
  | fire pending => exact moves_fire coherent pending
  | settle publishing => exact moves_settle publishing
  | finish settled => exact moves_finish coherent settled
  | stop => exact moves_stop loop
  | drain => exact .stays _
  | drainTimeout => exact .stays _
  | resume => exact .stays _

theorem moves_of_reaches {later : PollLoop} (coherent : Coherent loop)
    (reach : Reaches step loop later) : Relation.ReflTransGen Moves loop.spec later.spec :=
  reach.simulates coherent
    (fun _ _ _ coherent accepted => coherent_step coherent (edge_of_step accepted))
    (fun _ _ _ coherent accepted => moves_of_edge coherent (edge_of_step accepted))

/-! ## Every run of the module -/

/-- Once stopped, the loop starts no run, has no timer, and rests when its last run ends. -/
theorem after_stop {later : PollLoop} (coherent : Coherent loop) (called : loop.stops ≠ [])
    (reach : Reaches step loop later) :
    later.timers = [] ∧ later.runsStarted = loop.runsStarted ∧
      (loop.busy = false → ∀ run, (later.run run).inFlight = false) := by
  have laterCoherent : Coherent later := reach.invariant coherent fun _ _ _ coherent accepted =>
    coherent_step coherent (edge_of_step accepted)
  have stopping := coherent.flag.mpr called
  obtain ⟨ended, runs, rests⟩ := Moves.ended (moves_of_reaches coherent reach)
    (phase_ended.trans stopping)
  have laterStopping : later.isStopping = true := phase_ended.symm.trans ended
  refine ⟨?_, runs, fun quiet run => ?_⟩
  · by_contra pending
    rw [(laterCoherent.exclusive pending).2.1] at laterStopping
    cases laterStopping
  · have stopped : loop.phase = .stopped := by simp [phase, stopping, quiet]
    have laterStopped : later.phase = .stopped := rests stopped
    refine inFlight_of_quiet laterCoherent ?_ run
    by_contra flies
    rw [phase, if_pos laterStopping, if_pos (by simpa using flies)] at laterStopped
    cases laterStopped

/-- A call resolves with a warning exactly when one is logged. -/
theorem warned_iff (reachable : Reaches step initial loop) :
    .drainTimeout ∈ loop.log ↔ .resolved true ∈ loop.stops := by
  refine reachable.induction (motive := fun loop => .drainTimeout ∈ loop.log ↔
    .resolved true ∈ loop.stops) (by simp [initial]) fun loop action next _ holds accepted => ?_
  cases edge_of_step accepted with
  | start =>
      unfold startOutbox
      split <;> exact holds
  | fire =>
      unfold startOutbox
      split <;> exact holds
  | settle => exact holds
  | finish =>
      rename_i run failed _
      have log : (loop.finishRun run failed).log =
          loop.log ++ if failed then [PollLog.runFailed run] else [] := by simp [finishRun]
      have stops : (loop.finishRun run failed).stops = loop.stops := by simp [finishRun]
      rw [log, stops, ← holds]
      cases failed <;> simp
  | stop =>
      have fresh : StopCall.resolved true ≠
          loop.currentRun.elim (.resolved false) fun run => .waiting run true none := by
        cases loop.currentRun <;> simp
      simp [stopOutbox, holds, fresh]
  | drain waits => simp [mem_set_iff waits, holds]
  | drainTimeout waits => simp [mem_set_iff waits, holds]
  | resume waits =>
      rename_i drained
      rw [mem_set_iff waits (by simp)]
      cases drained <;> simp [holds]

/-- A started loop that is not stopped either runs or has one timer pending. -/
theorem running_or_waiting (coherent : Coherent loop) (started : loop.started = true)
    (running : loop.isStopping = false) :
    (∃ run, (loop.run run).inFlight = true) ∧ loop.timers = [] ∨
      (∀ run, (loop.run run).inFlight = false) ∧ ∃ timer, loop.timers = [timer] := by
  rcases coherent.timer with none | ⟨timer, only, _⟩
  · have flies := (coherent.alive started running).resolve_right fun pending => pending none
    obtain ⟨run, _, inFlight⟩ := (Option.any_eq_true _ _).mp flies
    exact Or.inl ⟨⟨run, inFlight⟩, none⟩
  · have quiet := (coherent.exclusive (by simp [only])).1
    exact Or.inr ⟨inFlight_of_quiet coherent quiet, timer, only⟩

theorem isStopping_of_uncalled (coherent : Coherent loop) (uncalled : loop.stops = []) :
    loop.isStopping = false := by
  by_contra stopping
  exact coherent.flag.mp (by simpa using stopping) uncalled

/-! ## Going on -/

/-- Another run can be started from here. -/
def CanGoOn (loop : PollLoop) : Prop :=
  ∃ later, Reaches step loop later ∧ later.runsStarted = loop.runsStarted + 1

theorem canGoOn_of_timer (running : loop.isStopping = false) (pending : loop.timers ≠ []) :
    CanGoOn loop := by
  obtain ⟨timer, member⟩ := List.exists_mem_of_ne_nil _ pending
  refine ⟨_, .single (show step loop (.fire timer) = _ from if_pos member), ?_⟩
  simp [startOutbox, running, runOutbox]

theorem canGoOn_of_settled (running : loop.isStopping = false) {run : RunId} {failed : Bool}
    (settled : loop.run run = .settled failed) : CanGoOn loop := by
  have finishes : step loop (.finish run) = some (loop.finishRun run failed) := by
    simp [step, settled]
  obtain ⟨later, reach, more⟩ : CanGoOn (loop.finishRun run failed) := by
    apply canGoOn_of_timer
    · simp [finishRun, scheduleNextRun, running]
    · simp [finishRun, scheduleNextRun, running]
  refine ⟨later, (Reaches.single finishes).trans reach, more.trans ?_⟩
  simp [finishRun, scheduleNextRun, running]

/-- A started loop that is not stopped never dies, however its runs end. -/
theorem canGoOn (reachable : Reaches step initial loop) (started : loop.started = true)
    (uncalled : loop.stops = []) : CanGoOn loop := by
  have coherent := coherent_of_reaches reachable
  have running := isStopping_of_uncalled coherent uncalled
  rcases running_or_waiting coherent started running with ⟨⟨run, inFlight⟩, _⟩ | ⟨_, timer, only⟩
  · cases state : loop.run run with
    | publishing =>
        have settles : step loop (.settle run false) =
            some { loop with run := Function.update loop.run run (.settled false) } :=
          if_pos state
        obtain ⟨later, reach, more⟩ : CanGoOn
            { loop with run := Function.update loop.run run (.settled false) } :=
          canGoOn_of_settled running (Function.update_self ..)
        exact ⟨later, (Reaches.single settles).trans reach, more⟩
    | settled failed => exact canGoOn_of_settled running state
    | unstarted => simp [state, RunState.inFlight] at inFlight
    | done => simp [state, RunState.inFlight] at inFlight
  · exact canGoOn_of_timer running (by simp [only])

/-! ## The guarantees -/

/-- At most one run is in flight; until the loop is stopped, a started loop either runs or
has one timer pending, and can go on; once it is stopped nothing starts any more; and a call
that resolves without a warning leaves nothing in flight. -/
theorem never_overlaps_nor_dies_and_stops (reachable : Reaches step initial loop) :
    (∀ run other, (loop.run run).inFlight = true → (loop.run other).inFlight = true →
      run = other) ∧
    (loop.started = true → loop.stops = [] →
      ((∃ run, (loop.run run).inFlight = true) ∧ loop.timers = [] ∨
        (∀ run, (loop.run run).inFlight = false) ∧ ∃ timer, loop.timers = [timer]) ∧
      CanGoOn loop) ∧
    (loop.stops ≠ [] → ∀ later, Reaches step loop later →
      later.timers = [] ∧ later.runsStarted = loop.runsStarted) ∧
    (.resolved false ∈ loop.stops → ∀ later, Reaches step loop later →
      ∀ run, (later.run run).inFlight = false) := by
  have coherent := coherent_of_reaches reachable
  refine ⟨?_, ?_, ?_, ?_⟩
  · intro run other runFlies otherFlies
    have same := (coherent.current run runFlies).symm.trans (coherent.current other otherFlies)
    exact Option.some.inj same
  · intro started uncalled
    exact ⟨running_or_waiting coherent started (isStopping_of_uncalled coherent uncalled),
      canGoOn reachable started uncalled⟩
  · intro called later reach
    obtain ⟨timers, runs, _⟩ := after_stop coherent called reach
    exact ⟨timers, runs⟩
  · intro resolved later reach
    exact (after_stop coherent (List.ne_nil_of_mem resolved) reach).2.2
      (coherent.calls _ resolved rfl)

namespace Sample

/-- A first run fails and the timer starts another, which a call of `stopOutbox` awaits. -/
def shutdown : List Action :=
  [ .start, .settle 0 true, .finish 0, .fire 0, .stop, .settle 1 false, .finish 1, .drain 0,
    .resume 0 ]

def afterShutdown : PollLoop := (runActions step initial shutdown).get (by decide)

end Sample

/-- The call resolves without a warning, and nothing is in flight then. -/
theorem never_overlaps_nor_dies_and_stops_sample :
    Sample.afterShutdown.runsStarted = 2 ∧ .resolved false ∈ Sample.afterShutdown.stops ∧
      ∀ run, (Sample.afterShutdown.run run).inFlight = false := by
  have reachable : Reaches step initial Sample.afterShutdown :=
    ⟨Sample.shutdown, (Option.some_get _).symm⟩
  have resolved : .resolved false ∈ Sample.afterShutdown.stops := by decide
  refine ⟨by decide, resolved, ?_⟩
  exact (never_overlaps_nor_dies_and_stops reachable).2.2.2 resolved _ (.refl _)

end PollLoop

end ObjectProcessor
