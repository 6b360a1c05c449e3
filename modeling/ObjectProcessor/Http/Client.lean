import Mathlib.Algebra.Order.Ring.Rat
import Mathlib.Tactic.Linarith
import ObjectProcessor.Http.Telemetry
import ObjectProcessor.Library.Isolation

/-!
# Requests of one client

All requests of the process share one client, and with it the map that holds what its hooks
note.  Between the hooks of a request those of any other request may run.
-/

namespace ObjectProcessor

open Library

/-- The delays of `config/retry.js`. -/
structure RetryDelays where
  baseDelayMs : Rat
  backoffMultiplier : Rat
  jitterPercentage : Rat
  maxDelayMs : Rat
  unknownMaxDelayMs : Rat

/-- `calcDelay`, with what `Math.random` draws. -/
def calcDelay (attempt : Nat) (baseDelayMs backoffMultiplier jitterPct capMs draw : Rat) : Rat :=
  let base := baseDelayMs * backoffMultiplier ^ (attempt - 1)
  let jitter := base * (jitterPct / 100) * draw
  min (base + jitter) capMs

/-- `cap` -/
def RetryDelays.cap (delays : RetryDelays) : Classification → Rat
  | .unknown => delays.unknownMaxDelayMs
  | _ => delays.maxDelayMs

def computeRetryDelay (delays : RetryDelays) (attempt : Nat) (ctx : RetryContext)
    (draw : Rat) : Rat :=
  calcDelay attempt delays.baseDelayMs delays.backoffMultiplier delays.jitterPercentage
    (delays.cap (classifyError ctx)) draw

/-- How far a request has come, with what its retries have waited for so far. -/
inductive RequestPhase where
  | idle
  /-- The attempt is under way, and so many more may follow. -/
  | attempting (attempt left : Nat) (waited : Rat)
  | completing (attempt : Nat) (waited : Rat)
  | done (made : Nat) (metadata : RetryMetadata) (log : CompletionLog) (waited : Rat)
  deriving DecidableEq

structure HttpClient (Request : Type*) where
  retryStateByRequest : Request → Option RetryState
  phase : Request → RequestPhase

section Client

variable {Request : Type*} [DecidableEq Request] (budgets : RetryBudgets) (delays : RetryDelays)
  (outcomes : Request → Nat → AttemptOutcome)

/-- The next hook of a request runs, with what it draws. -/
def HttpClient.step (request : Request) (draw : Rat) (client : HttpClient Request) :
    HttpClient Request :=
  let states := client.retryStateByRequest
  match client.phase request with
  | .idle =>
      { retryStateByRequest := beforeHook request states
        phase := Function.update client.phase request (.attempting 1 budgets.retries 0) }
  | .attempting attempt 0 waited =>
      { client with phase := Function.update client.phase request (.completing attempt waited) }
  | .attempting attempt (left + 1) waited =>
      let decided :=
        shouldRetryHook budgets request attempt (outcomes request attempt).context states
      let delay := computeRetryDelay delays attempt (outcomes request attempt).context draw
      { retryStateByRequest := decided.2
        phase := Function.update client.phase request
          (if decided.1 then .attempting (attempt + 1) left (waited + delay)
          else .completing attempt waited) }
  | .completing attempt waited =>
      let completed := onCompleteHook request (outcomes request attempt) states
      { retryStateByRequest := completed.2.2
        phase := Function.update client.phase request
          (.done attempt completed.1 completed.2.1 waited) }
  | .done .. => client

/-- What a request sees of the client. -/
def HttpClient.view (request : Request) (client : HttpClient Request) :
    RequestPhase × Option RetryState :=
  (client.phase request, client.retryStateByRequest request)

/-! ## The hooks touch one entry of the map -/

theorem shouldRetryHook_other {request other : Request} (apart : other ≠ request) (attempt : Nat)
    (ctx : RetryContext) (states : Request → Option RetryState) :
    (shouldRetryHook budgets other attempt ctx states).2 request = states request := by
  rw [shouldRetryHook]
  split
  · exact Function.update_of_ne apart.symm ..
  · rfl

theorem shouldRetryHook_congr (request : Request) (attempt : Nat) (ctx : RetryContext)
    {left right : Request → Option RetryState} (same : left request = right request) :
    (shouldRetryHook budgets request attempt ctx left).1 =
        (shouldRetryHook budgets request attempt ctx right).1 ∧
      (shouldRetryHook budgets request attempt ctx left).2 request =
        (shouldRetryHook budgets request attempt ctx right).2 request := by
  simp only [shouldRetryHook]
  split
  · simp [same]
  · exact ⟨rfl, same⟩

/-- Requests do not see each other's hooks. -/
theorem HttpClient.isolated :
    Isolated (HttpClient.step budgets delays outcomes) HttpClient.view := by
  constructor
  · intro request draw left right same
    obtain ⟨phase, noted⟩ := Prod.mk.inj same
    simp only [HttpClient.step, phase]
    cases right.phase request with
    | idle => simp [HttpClient.view, beforeHook]
    | attempting attempt remaining waited =>
        cases remaining with
        | zero => simp [HttpClient.view, noted]
        | succ remaining =>
            obtain ⟨again, notes⟩ := shouldRetryHook_congr budgets request attempt
              (outcomes request attempt).context noted
            simp [HttpClient.view, again, notes]
    | completing attempt waited => simp [HttpClient.view, onCompleteHook, noted]
    | done made metadata log waited => simpa [HttpClient.view] using same
  · intro request other draw client apart
    simp only [HttpClient.step]
    cases client.phase other with
    | idle => simp [HttpClient.view, beforeHook, Function.update_of_ne apart.symm]
    | attempting attempt remaining waited =>
        cases remaining with
        | zero => simp [HttpClient.view, Function.update_of_ne apart.symm]
        | succ remaining =>
            simp [HttpClient.view, Function.update_of_ne apart.symm,
              shouldRetryHook_other budgets apart]
    | completing attempt waited =>
        simp [HttpClient.view, onCompleteHook, Function.update_of_ne apart.symm]
    | done => rfl

/-! ## A request alone -/

/-- A request that is done stays done. -/
theorem HttpClient.run_done {request : Request} {client : HttpClient Request} {made : Nat}
    {metadata : RetryMetadata} {log : CompletionLog} {waited : Rat}
    (done : client.phase request = .done made metadata log waited)
    (turns : List (Request × Rat)) (own : ∀ turn ∈ turns, turn.1 = request) :
    runSchedule (HttpClient.step budgets delays outcomes) turns client = client := by
  induction turns with
  | nil => rfl
  | cons turn rest ih =>
      rw [List.forall_mem_cons] at own
      rw [runSchedule_cons, own.1]
      have stays : HttpClient.step budgets delays outcomes request turn.2 client = client := by
        simp only [HttpClient.step, done]
      rw [stays, ih own.2]

/-- How a request that has got so far ends, given its turns. -/
structure EndsAs (request : Request) (attempted : Nat × (Request → Option RetryState))
    (waited : Rat) (last : HttpClient Request) : Prop where
  phase : ∃ total, last.phase request =
    .done attempted.1 (onCompleteHook request (outcomes request attempted.1) attempted.2).1
      (onCompleteHook request (outcomes request attempted.1) attempted.2).2.1 total ∧
    total ≤ waited
  forgotten : last.retryStateByRequest request = none

/-- The last hook runs in one turn. -/
theorem HttpClient.run_completing {request : Request} {client : HttpClient Request}
    {attempt : Nat} {waited : Rat} (phase : client.phase request = .completing attempt waited)
    {turns : List (Request × Rat)} (own : ∀ turn ∈ turns, turn.1 = request)
    (enough : 1 ≤ turns.length) :
    EndsAs outcomes request (attempt, client.retryStateByRequest) waited
      (runSchedule (HttpClient.step budgets delays outcomes) turns client) := by
  cases turns with
  | nil => simp at enough
  | cons turn rest =>
      rw [List.forall_mem_cons] at own
      rw [runSchedule_cons, own.1]
      have completed : (HttpClient.step budgets delays outcomes request turn.2 client).phase
          request = .done attempt
            (onCompleteHook request (outcomes request attempt) client.retryStateByRequest).1
            (onCompleteHook request (outcomes request attempt) client.retryStateByRequest).2.1
            waited := by
        simp only [HttpClient.step, phase, Function.update_self]
      rw [HttpClient.run_done budgets delays outcomes completed rest own.2]
      refine ⟨⟨waited, completed, le_refl _⟩, ?_⟩
      simp only [HttpClient.step, phase, onCompleteHook, Function.update_self]

/-- No retry waits for longer than the larger of the two caps. -/
theorem computeRetryDelay_le (attempt : Nat) (ctx : RetryContext) (draw : Rat) :
    computeRetryDelay delays attempt ctx draw ≤
      max delays.maxDelayMs delays.unknownMaxDelayMs := by
  have capped : computeRetryDelay delays attempt ctx draw ≤
      delays.cap (classifyError ctx) := min_le_right ..
  refine capped.trans ?_
  cases classifyError ctx with
  | unknown => exact le_max_right ..
  | retryable => exact le_max_left ..
  | nonRetryable => exact le_max_left ..

/-- The longest a retry may wait. -/
def RetryDelays.longest : Rat := max delays.maxDelayMs delays.unknownMaxDelayMs

/-- The attempts of a request take a turn each, and so does the last hook. -/
theorem HttpClient.run_attempting {request : Request} {client : HttpClient Request}
    {attempt left : Nat} {waited : Rat}
    (phase : client.phase request = .attempting attempt left waited)
    {turns : List (Request × Rat)} (own : ∀ turn ∈ turns, turn.1 = request)
    (enough : left + 2 ≤ turns.length) {attempted : Nat × (Request → Option RetryState)}
    (loop : attempted = attemptLoop (fun attempt => shouldRetryHook budgets request attempt
      (outcomes request attempt).context) left attempt client.retryStateByRequest) :
    EndsAs outcomes request attempted (waited + (attempted.1 - attempt : Rat) * delays.longest)
      (runSchedule (HttpClient.step budgets delays outcomes) turns client) := by
  induction left generalizing attempt client waited turns with
  | zero =>
      cases turns with
      | nil => simp at enough
      | cons turn rest =>
          rw [List.forall_mem_cons] at own
          have completing : (client.step budgets delays outcomes request turn.2).phase request =
              .completing attempt waited := by
            simp only [HttpClient.step, phase, Function.update_self]
          have kept : (client.step budgets delays outcomes request turn.2).retryStateByRequest =
              client.retryStateByRequest := by
            simp only [HttpClient.step, phase]
          have ends := HttpClient.run_completing budgets delays outcomes completing own.2
            (by simpa using enough)
          rw [kept] at ends
          rw [runSchedule_cons, own.1, loop, attemptLoop, sub_self, zero_mul, add_zero]
          exact ends
  | succ left ih =>
      cases turns with
      | nil => simp at enough
      | cons turn rest =>
          rw [List.forall_mem_cons] at own
          rw [List.length_cons] at enough
          rw [attemptLoop] at loop
          rw [runSchedule_cons, own.1]
          have kept : (client.step budgets delays outcomes request turn.2).retryStateByRequest =
              (shouldRetryHook budgets request attempt (outcomes request attempt).context
                client.retryStateByRequest).2 := by
            simp only [HttpClient.step, phase]
          by_cases again : (shouldRetryHook budgets request attempt
              (outcomes request attempt).context client.retryStateByRequest).1 = true
          · rw [if_pos again] at loop
            have attempting : (client.step budgets delays outcomes request turn.2).phase
                request = .attempting (attempt + 1) left (waited +
                  computeRetryDelay delays attempt (outcomes request attempt).context turn.2) := by
              simp only [HttpClient.step, phase, Function.update_self, again, ↓reduceIte]
            obtain ⟨⟨total, done, bounded⟩, forgotten⟩ :=
              ih attempting own.2 (by omega) (kept ▸ loop)
            refine ⟨⟨total, done, bounded.trans ?_⟩, forgotten⟩
            have capped :=
              computeRetryDelay_le delays attempt (outcomes request attempt).context turn.2
            rw [← RetryDelays.longest] at capped
            push_cast
            linarith
          · rw [if_neg again] at loop
            have completing : (client.step budgets delays outcomes request turn.2).phase
                request = .completing attempt waited := by
              simp only [HttpClient.step, phase, Function.update_self, again, ↓reduceIte,
                Bool.false_eq_true]
            have ends := HttpClient.run_completing budgets delays outcomes completing own.2
              (by omega)
            rw [kept] at ends
            rw [loop, sub_self, zero_mul, add_zero]
            exact ends

/-! ## Requests together -/

/-- How a request ends does not depend on what the client has noted before. -/
theorem performRequest_congr (request : Request) (outcomes : Nat → AttemptOutcome)
    (left right : Request → Option RetryState) :
    (performRequest budgets request outcomes left).made =
        (performRequest budgets request outcomes right).made ∧
      (performRequest budgets request outcomes left).metadata =
        (performRequest budgets request outcomes right).metadata ∧
      (performRequest budgets request outcomes left).log =
        (performRequest budgets request outcomes right).log := by
  obtain ⟨isLeft, _, leftNoted, leftLog⟩ := performRequest_spec budgets request outcomes left
  obtain ⟨isRight, _, rightNoted, rightLog⟩ := performRequest_spec budgets request outcomes right
  have same := isLeft.unique isRight
  exact ⟨same, by rw [leftNoted, rightNoted, same], by rw [leftLog, rightLog, same]⟩

/-- Whatever other requests the client makes meanwhile, in whichever order their hooks run, a
request given its turns ends as it does alone: with the attempts the policy asks for, reported
as such, after waits within the caps, and with its notes deleted. -/
theorem requests_do_not_interfere {client : HttpClient Request} {request : Request}
    (fresh : client.phase request = .idle) {schedule : List (Request × Rat)}
    (enough : budgets.retries + 3 ≤ (turnsOf request schedule).length) :
    ∃ waited,
      (runSchedule (HttpClient.step budgets delays outcomes) schedule client).phase request =
          .done (performRequest budgets request (outcomes request) fun _ => none).made
            (performRequest budgets request (outcomes request) fun _ => none).metadata
            (performRequest budgets request (outcomes request) fun _ => none).log waited ∧
        waited ≤ ((performRequest budgets request (outcomes request) fun _ => none).made - 1 :
          Rat) * delays.longest ∧
        (runSchedule (HttpClient.step budgets delays outcomes) schedule
          client).retryStateByRequest request = none := by
  obtain ⟨made, metadata, log⟩ := performRequest_congr budgets request (outcomes request)
    (fun _ => none) client.retryStateByRequest
  obtain ⟨phase, noted⟩ := Prod.mk.inj
    ((HttpClient.isolated budgets delays outcomes).run_alone request schedule client)
  have own : ∀ turn ∈ turnsOf request schedule, turn.1 = request := fun turn member =>
    of_decide_eq_true (List.mem_filter.mp member).2
  rw [phase, noted, made, metadata, log]
  generalize turnsOf request schedule = turns at enough own
  cases turns with
  | nil => simp at enough
  | cons turn rest =>
      rw [List.forall_mem_cons] at own
      rw [runSchedule_cons, own.1]
      have attempting : (client.step budgets delays outcomes request turn.2).phase request =
          .attempting 1 budgets.retries 0 := by
        simp only [HttpClient.step, fresh, Function.update_self]
      have begun : (client.step budgets delays outcomes request turn.2).retryStateByRequest =
          beforeHook request client.retryStateByRequest := by
        simp only [HttpClient.step, fresh]
      obtain ⟨⟨total, done, bounded⟩, forgotten⟩ :=
        HttpClient.run_attempting budgets delays outcomes attempting own.2
          (by simpa using enough) rfl
      rw [begun] at done bounded
      refine ⟨total, done, bounded.trans (le_of_eq ?_), forgotten⟩
      rw [zero_add, Nat.cast_one]
      rfl

end Client

namespace Sample

/-- The delays of the defaults. -/
def retryDelays : RetryDelays where
  baseDelayMs := 500
  backoffMultiplier := 3 / 2
  jitterPercentage := 15
  maxDelayMs := 15000
  unknownMaxDelayMs := 10000

/-- The first request recovers after one server error, the second meets server errors only. -/
def twoRequests (request : Nat) (attempt : Nat) : AttemptOutcome :=
  if request = 1 ∧ 2 ≤ attempt then .responded 200 else .responded 500

/-- The hooks of two requests, in turn. -/
def turnByTurn : List (Nat × Rat) := (List.replicate 5 [(1, 0), (2, 0)]).flatten

end Sample

/-- The first of two requests is made twice, as alone, whatever the second one notes between its
hooks. -/
theorem requests_do_not_interfere_sample :
    (performRequest Sample.retryBudgets 1 (Sample.twoRequests 1) fun _ => none).made = 2 ∧
      ∃ waited,
        (runSchedule (HttpClient.step Sample.retryBudgets Sample.retryDelays Sample.twoRequests)
          Sample.turnByTurn ⟨fun _ => none, fun _ => .idle⟩).phase 1 =
            .done (performRequest Sample.retryBudgets 1 (Sample.twoRequests 1) fun _ => none).made
              (performRequest Sample.retryBudgets 1 (Sample.twoRequests 1)
                fun _ => none).metadata
              (performRequest Sample.retryBudgets 1 (Sample.twoRequests 1) fun _ => none).log
              waited := by
  have fresh : (⟨fun _ => none, fun _ => .idle⟩ : HttpClient Nat).phase 1 = .idle := rfl
  have enough : Sample.retryBudgets.retries + 3 ≤ (turnsOf 1 Sample.turnByTurn).length := by
    decide
  obtain ⟨waited, done, _⟩ := requests_do_not_interfere Sample.retryBudgets Sample.retryDelays
    Sample.twoRequests fresh enough
  exact ⟨by decide, waited, done⟩

end ObjectProcessor
