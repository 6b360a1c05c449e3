import Mathlib.Data.List.Infix
import Mathlib.Logic.Function.Basic
import ObjectProcessor.Library.Attempts

/-!
# The retries of the HTTP client

Three hooks follow a request.  The first sets up its state, the second decides after
an attempt whether to make another one and notes what it has seen, and the last one
reports how the request ended from the notes.  The library asks the second hook after
every attempt but the last one the larger budget allows, so nothing is noted of that
attempt.
-/

namespace ObjectProcessor

open Library

/-- The budgets of `config/retry.js`, which are counts of attempts. -/
structure RetryBudgets where
  /-- `retry.http.maxAttempts` -/
  maxAttempts : Nat
  /-- `retry.http.unknownMaxAttempts` -/
  unknownMaxAttempts : Nat
  maxAttempts_pos : 0 < maxAttempts
  unknownMaxAttempts_pos : 0 < unknownMaxAttempts

/-- What an attempt throws. -/
inductive Thrown where
  | abortError (message : String)
  | timeoutError (message : String)
  | networkError (message : String)
  /-- Any other `Error`. -/
  | error (message : String)
  | text (thrown : String)
  /-- Any other object, with its JSON text. -/
  | object (json : String)
  /-- Any other value, `null` among them: whether it is truthy, and its JSON text. -/
  | primitive (truthy : Bool) (json : String)
  deriving DecidableEq, Repr

namespace Thrown

def truthy : Thrown → Bool
  | .text thrown => thrown ≠ ""
  | .primitive isTruthy _ => isTruthy
  | _ => true

/-- `typeof error === 'object' && error !== null`: only an object can carry metadata. -/
def isObject : Thrown → Bool
  | .text _ => false
  | .primitive _ _ => false
  | _ => true

end Thrown

/-- How an attempt ends.  Beside what is thrown the library still holds the response of an earlier
attempt, if there was one. -/
inductive AttemptOutcome where
  | responded (status : Nat)
  | threw (thrown : Thrown) (held : Option Nat)
  deriving DecidableEq, Repr

/-- What the hooks are shown after an attempt: the status of a response, and an error. -/
structure RetryContext where
  response : Option Nat
  error : Option Thrown
  deriving DecidableEq, Repr

namespace AttemptOutcome

def context : AttemptOutcome → RetryContext
  | .responded status => { response := some status, error := none }
  | .threw thrown held => { response := held, error := some thrown }

/-- The context the attempt would leave if it were the only one. -/
def own : AttemptOutcome → RetryContext
  | .responded status => { response := some status, error := none }
  | .threw thrown _ => { response := none, error := some thrown }

end AttemptOutcome

inductive Classification where
  | retryable
  | nonRetryable
  | unknown
  deriving DecidableEq, Repr

/-- The codes of `RETRYABLE_NETWORK_ERROR`. -/
def retryableNetworkCodes : List String :=
  ["ECONNRESET", "ECONNREFUSED", "ENOTFOUND", "ETIMEDOUT", "EPIPE", "EAI_AGAIN"]

/-- `RETRYABLE_NETWORK_ERROR.test(message)`, which ignores case. -/
def isRetryableNetworkError (message : String) : Bool :=
  retryableNetworkCodes.any fun code =>
    decide (code.toList <:+: message.toList.map Char.toUpper)

def httpTooManyRequests : Nat := 429
def httpServerErrorMin : Nat := 500
def httpClientErrorMin : Nat := 400

def classifyResponseStatus (status : Nat) : Classification :=
  if status = httpTooManyRequests ∨ httpServerErrorMin ≤ status then .retryable else .nonRetryable

/-- The errors `classifyError` recognises. -/
def classifyThrown : Thrown → Option Classification
  | .abortError _ => some .nonRetryable
  | .timeoutError _ => some .retryable
  | .networkError _ => some .retryable
  | .error message => if isRetryableNetworkError message then some .retryable else none
  | _ => none

/-- Where the error is not recognised, the response beside it decides. -/
def classifyError (ctx : RetryContext) : Classification :=
  match ctx.error.bind classifyThrown with
  | some classification => classification
  | none => ctx.response.elim .unknown classifyResponseStatus

def errorMessage : Thrown → String
  | .abortError message => message
  | .timeoutError message => message
  | .networkError message => message
  | .error message => message
  | .text thrown => thrown
  | .object json => json
  | .primitive _ json => json

def toMetadataCategory : Classification → String
  | .nonRetryable => "non-retryable"
  | .retryable => "retryable"
  | .unknown => "unknown"

def httpReason (status : Nat) : String := "http_" ++ toString status

def buildTerminalReason (ctx : RetryContext) : String :=
  match ctx.response with
  | some status => httpReason status
  | none => ctx.error.elim "" errorMessage

def isRetryDecisionFailure (ctx : RetryContext) : Bool :=
  ctx.error.any Thrown.truthy || ctx.response.any fun status => httpClientErrorMin ≤ status

/-! ## The hooks -/

/-- What the hooks note of a request. -/
structure RetryState where
  lastAttempt : Nat
  finalAttempt : Option Nat
  category : String
  terminalReason : String
  deriving DecidableEq, Repr

def buildRetryState : RetryState where
  lastAttempt := 0
  finalAttempt := none
  category := "unknown"
  terminalReason := "unknown_error"

structure RetryMetadata where
  attempts : Nat
  category : String
  terminalReason : String
  deriving DecidableEq, Repr

/-- What `onComplete` logs. -/
inductive CompletionLog where
  | silent
  /-- `http_retry_terminal`, and whether the metadata was attached to the error. -/
  | terminal (attached : Bool) (message : String)
  /-- `http_retry_recovered` -/
  | recovered (statusCode : Option Nat)
  deriving DecidableEq, Repr

/-- What is logged when the last attempt ends with the outcome.  The client gets a response or an
error from it. -/
def completionLog (attempts : Nat) : AttemptOutcome → CompletionLog
  | .threw thrown _ =>
      if thrown.truthy then .terminal thrown.isObject (errorMessage thrown)
      else if 1 < attempts then .recovered none
      else .silent
  | .responded status => if 1 < attempts then .recovered (some status) else .silent

section Hooks

variable {Request : Type*} [DecidableEq Request] (budgets : RetryBudgets) (request : Request)

/-- `limit` -/
def attemptLimit : Classification → Nat
  | .unknown => budgets.unknownMaxAttempts
  | _ => budgets.maxAttempts

/-- `willRetry` -/
def willRetry (attempt : Nat) (ctx : RetryContext) : Bool :=
  classifyError ctx ≠ .nonRetryable && attempt < attemptLimit budgets (classifyError ctx)

def beforeHook (retryStateByRequest : Request → Option RetryState) :
    Request → Option RetryState :=
  Function.update retryStateByRequest request (some buildRetryState)

def shouldRetryHook (attempt : Nat) (ctx : RetryContext)
    (retryStateByRequest : Request → Option RetryState) :
    Bool × (Request → Option RetryState) :=
  if isRetryDecisionFailure ctx then
    let again := willRetry budgets attempt ctx
    let existingState := (retryStateByRequest request).getD buildRetryState
    let state : RetryState :=
      { lastAttempt := max existingState.lastAttempt attempt
        finalAttempt := if again then existingState.finalAttempt else some attempt
        category := toMetadataCategory (classifyError ctx)
        terminalReason := buildTerminalReason ctx }
    (again, Function.update retryStateByRequest request (some state))
  else
    (false, retryStateByRequest)

def onCompleteHook (outcome : AttemptOutcome)
    (retryStateByRequest : Request → Option RetryState) :
    RetryMetadata × CompletionLog × (Request → Option RetryState) :=
  let state := (retryStateByRequest request).getD buildRetryState
  let attempts := state.finalAttempt.getD (max 1 (state.lastAttempt + 1))
  let metadata : RetryMetadata :=
    { attempts, category := state.category, terminalReason := state.terminalReason }
  (metadata, completionLog attempts outcome, Function.update retryStateByRequest request none)

/-- The `retries` of `makeClient`. -/
def RetryBudgets.retries : Nat := max budgets.maxAttempts budgets.unknownMaxAttempts - 1

/-- A request with what came of it. -/
structure Exchange (Request : Type*) where
  /-- The number of attempts made. -/
  made : Nat
  metadata : RetryMetadata
  log : CompletionLog
  retryStateByRequest : Request → Option RetryState

/-- A request whose attempts, were they made, would end as listed. -/
def performRequest (outcomes : Nat → AttemptOutcome)
    (retryStateByRequest : Request → Option RetryState) : Exchange Request :=
  let attempted := attemptLoop
    (fun attempt => shouldRetryHook budgets request attempt (outcomes attempt).context)
    budgets.retries 1 (beforeHook request retryStateByRequest)
  let completed := onCompleteHook request (outcomes attempted.1) attempted.2
  { made := attempted.1
    metadata := completed.1
    log := completed.2.1
    retryStateByRequest := completed.2.2 }

end Hooks

/-! ## What is noted of the attempts -/

section Notes

variable {Request : Type*} [DecidableEq Request] (budgets : RetryBudgets) (request : Request)
  (outcomes : Nat → AttemptOutcome)

/-- The notes before the given attempt, when all attempts before it were retried. -/
def notesBefore : Nat → RetryState
  | 0 | 1 => buildRetryState
  | attempt + 2 =>
      { lastAttempt := attempt + 1
        finalAttempt := none
        category := toMetadataCategory (classifyError (outcomes (attempt + 1)).context)
        terminalReason := buildTerminalReason (outcomes (attempt + 1)).context }

/-- The attempt failed, and another one is made after it. -/
def Retried (attempt : Nat) : Prop :=
  isRetryDecisionFailure (outcomes attempt).context = true ∧
    willRetry budgets attempt (outcomes attempt).context = true

theorem retried_iff (attempt : Nat) : Retried budgets outcomes attempt ↔
    isRetryDecisionFailure (outcomes attempt).context = true ∧
      classifyError (outcomes attempt).context ≠ .nonRetryable ∧
      attempt < attemptLimit budgets (classifyError (outcomes attempt).context) := by
  simp [Retried, willRetry]

theorem attemptLimit_le (classification : Classification) :
    attemptLimit budgets classification ≤ budgets.retries + 1 := by
  have positive := budgets.maxAttempts_pos
  rw [RetryBudgets.retries]
  cases classification <;> simp only [attemptLimit] <;> omega

/-! ### By the class of the attempt itself -/

/-- The attempt brought an error or a response that is one. -/
def AttemptOutcome.failed : AttemptOutcome → Bool
  | .responded status => httpClientErrorMin ≤ status
  | .threw _ _ => true

/-- The attempt failed, and the budget of its own class allows another one. -/
def RetriedByOwnClass (attempt : Nat) (outcome : AttemptOutcome) : Prop :=
  outcome.failed = true ∧ classifyError outcome.own ≠ .nonRetryable ∧
    attempt < attemptLimit budgets (classifyError outcome.own)

/-- An error that is not recognised is decided on as one of unknown class: no response is held
beside it, unless that has the same effect, and it is one the hook takes for an error. -/
def DecidedByOwnClass (attempt : Nat) : AttemptOutcome → Prop
  | .responded _ => True
  | .threw thrown none =>
      (classifyThrown thrown).isSome = true ∨ thrown.truthy = true ∨
        budgets.unknownMaxAttempts ≤ attempt
  | .threw thrown (some status) =>
      (classifyThrown thrown).isSome = true ∨
        (classifyResponseStatus status = .retryable ∧ attempt < budgets.maxAttempts ↔
          attempt < budgets.unknownMaxAttempts)

theorem truthy_of_classifyThrown {thrown : Thrown}
    (recognised : (classifyThrown thrown).isSome = true) : thrown.truthy = true := by
  cases thrown with
  | text | object | primitive => cases recognised
  | _ => rfl

theorem classifyResponseStatus_cases (status : Nat) :
    classifyResponseStatus status = .retryable ∧ httpClientErrorMin ≤ status ∨
      classifyResponseStatus status = .nonRetryable := by
  unfold classifyResponseStatus
  split
  · rename_i retryable
    refine Or.inl ⟨rfl, ?_⟩
    rcases retryable with rfl | serverError
    · decide
    · exact Nat.le_trans (by decide) serverError
  · exact Or.inr rfl

/-- The hook decides by the class of the attempt itself exactly in these cases. -/
theorem decidedByOwnClass_iff (attempt : Nat) :
    DecidedByOwnClass budgets attempt (outcomes attempt) ↔
      (Retried budgets outcomes attempt ↔
        RetriedByOwnClass budgets attempt (outcomes attempt)) := by
  rw [retried_iff, RetriedByOwnClass]
  cases outcomes attempt with
  | responded status =>
      refine iff_of_true trivial ?_
      simp [AttemptOutcome.context, AttemptOutcome.own, AttemptOutcome.failed,
        isRetryDecisionFailure]
  | threw thrown held =>
      cases recognised : classifyThrown thrown with
      | some classification =>
          have truthy := truthy_of_classifyThrown (by rw [recognised]; rfl)
          have same (ctx : RetryContext) (error : ctx.error = some thrown) :
              classifyError ctx = classification := by
            simp [classifyError, error, recognised]
          refine iff_of_true ?_ ?_
          · cases held <;> exact Or.inl (by rw [recognised]; rfl)
          · rw [same _ rfl, same _ rfl]
            simp [AttemptOutcome.context, AttemptOutcome.failed, isRetryDecisionFailure, truthy]
      | none =>
          have own : classifyError (AttemptOutcome.threw thrown held).own = .unknown := by
            simp [AttemptOutcome.own, classifyError, recognised]
          rw [own]
          cases held with
          | none =>
              have unknown : classifyError (AttemptOutcome.threw thrown none).context =
                  .unknown := own
              rw [unknown]
              simp only [DecidedByOwnClass, recognised, AttemptOutcome.context,
                AttemptOutcome.failed, isRetryDecisionFailure, attemptLimit]
              by_cases truthy : thrown.truthy = true <;> simp [truthy]
          | some status =>
              have byResponse : classifyError (AttemptOutcome.threw thrown (some status)).context =
                  classifyResponseStatus status := by
                simp [AttemptOutcome.context, classifyError, recognised]
              rw [byResponse]
              simp only [DecidedByOwnClass, recognised, AttemptOutcome.context,
                AttemptOutcome.failed, isRetryDecisionFailure]
              rcases classifyResponseStatus_cases status with ⟨retryable, isError⟩ | final
              · simp [retryable, isError, attemptLimit]
              · simp [final, attemptLimit]

variable {budgets outcomes}

/-- The hook retries what the policy retries. -/
theorem shouldRetryHook_fst (attempt : Nat) (states : Request → Option RetryState) :
    (shouldRetryHook budgets request attempt (outcomes attempt).context states).1 = true ↔
      Retried budgets outcomes attempt := by
  rw [shouldRetryHook, Retried]
  by_cases failed : isRetryDecisionFailure (outcomes attempt).context = true
  · simp [failed]
  · simp [failed]

theorem notesBefore_finalAttempt (attempt : Nat) :
    (notesBefore outcomes attempt).finalAttempt = none := by
  match attempt with
  | 0 => rfl
  | 1 => rfl
  | _ + 2 => rfl

theorem notesBefore_lastAttempt (attempt : Nat) :
    (notesBefore outcomes attempt).lastAttempt = attempt - 1 := by
  match attempt with
  | 0 => rfl
  | 1 => rfl
  | _ + 2 => rfl

/-- What the hook notes of a failed attempt. -/
theorem shouldRetryHook_notes {attempt : Nat}
    (failed : isRetryDecisionFailure (outcomes attempt).context = true)
    {states : Request → Option RetryState}
    (noted : states request = some (notesBefore outcomes attempt)) :
    (shouldRetryHook budgets request attempt (outcomes attempt).context states).2 request =
      some
        { lastAttempt := attempt
          finalAttempt :=
            if willRetry budgets attempt (outcomes attempt).context then none else some attempt
          category := toMetadataCategory (classifyError (outcomes attempt).context)
          terminalReason := buildTerminalReason (outcomes attempt).context } := by
  have latest : max (attempt - 1) attempt = attempt := by omega
  rw [shouldRetryHook, if_pos failed]
  simp only [Function.update_self, noted, Option.getD_some, notesBefore_finalAttempt,
    notesBefore_lastAttempt, latest]

/-- A retried attempt leaves the notes the next attempt finds. -/
theorem shouldRetryHook_keeps {attempt : Nat} {states : Request → Option RetryState}
    (positive : 1 ≤ attempt) (noted : states request = some (notesBefore outcomes attempt))
    (again : (shouldRetryHook budgets request attempt (outcomes attempt).context
      states).1 = true) :
    (shouldRetryHook budgets request attempt (outcomes attempt).context states).2 request =
      some (notesBefore outcomes (attempt + 1)) := by
  obtain ⟨failed, retries⟩ := (shouldRetryHook_fst request attempt states).mp again
  obtain ⟨earlier, rfl⟩ := Nat.exists_eq_add_of_le' positive
  rw [shouldRetryHook_notes request failed noted, if_pos retries]
  rfl

end Notes

/-! ## How a request ends -/

section Requests

variable {Request : Type*} [DecidableEq Request] (budgets : RetryBudgets) (request : Request)
  (outcomes : Nat → AttemptOutcome) (states : Request → Option RetryState)

/-- The notes the last attempt leaves: the hook is not asked when the loop is exhausted, and
notes nothing of an attempt that did not fail. -/
def finalNotes (last : Nat) : RetryState :=
  if last ≤ budgets.retries ∧ isRetryDecisionFailure (outcomes last).context = true then
    { lastAttempt := last
      finalAttempt := some last
      category := toMetadataCategory (classifyError (outcomes last).context)
      terminalReason := buildTerminalReason (outcomes last).context }
  else notesBefore outcomes last

/-- The attempt is made, and no other one after it. -/
def IsLast (attempt : Nat) : Prop :=
  1 ≤ attempt ∧ (∀ earlier, 1 ≤ earlier → earlier < attempt → Retried budgets outcomes earlier) ∧
    ¬ Retried budgets outcomes attempt

/-- The last attempt the larger budget allows is never retried. -/
theorem not_retried_of_exhausted : ¬ Retried budgets outcomes (1 + budgets.retries) := by
  rw [retried_iff]
  rintro ⟨_, _, below⟩
  have limit := attemptLimit_le budgets (classifyError (outcomes (1 + budgets.retries)).context)
  omega

variable {budgets outcomes} in
theorem IsLast.unique {left right : Nat} (isLeft : IsLast budgets outcomes left)
    (isRight : IsLast budgets outcomes right) : left = right := by
  by_contra differ
  rcases Nat.lt_or_gt_of_ne differ with before | after
  · exact isLeft.2.2 (isRight.2.1 left isLeft.1 before)
  · exact isRight.2.2 (isLeft.2.1 right isRight.1 after)

/-- The loop makes the attempts the policy asks for and leaves the notes of the last one. -/
theorem attempted_spec :
    let attempted := attemptLoop
      (fun attempt => shouldRetryHook budgets request attempt (outcomes attempt).context)
      budgets.retries 1 (beforeHook request states)
    IsLast budgets outcomes attempted.1 ∧ attempted.1 ≤ 1 + budgets.retries ∧
      attempted.2 request = some (finalNotes budgets outcomes attempted.1) := by
  have start : (1 : Nat) ≤ 1 ∧
      beforeHook request states request = some (notesBefore outcomes 1) :=
    ⟨Nat.le_refl 1, Function.update_self ..⟩
  have spec := attemptLoop_end
    (fun attempt => shouldRetryHook budgets request attempt (outcomes attempt).context)
    (fun attempt states => 1 ≤ attempt ∧ states request = some (notesBefore outcomes attempt))
    (fun attempt states noted again =>
      ⟨by omega, shouldRetryHook_keeps request noted.1 noted.2 again⟩)
    budgets.retries 1 start
  generalize attemptLoop (fun attempt => shouldRetryHook budgets request attempt
    (outcomes attempt).context) budgets.retries 1 (beforeHook request states) = attempted at spec ⊢
  obtain ⟨last, final⟩ := attempted
  have retried : ∀ earlier, 1 ≤ earlier → earlier < last → Retried budgets outcomes earlier := by
    intro earlier least before
    obtain ⟨state, _, again⟩ := spec.retried earlier least before
    exact (shouldRetryHook_fst request earlier state).mp again
  rcases spec.ended with ⟨exhausted, _, noted⟩ | ⟨early, state, ⟨_, noted⟩, stopped, left⟩
  · refine ⟨⟨spec.reached, retried, ?_⟩, spec.allowed, ?_⟩
    · rw [exhausted]
      exact not_retried_of_exhausted budgets outcomes
    · have unasked : ¬ last ≤ budgets.retries := by
        have same : last = 1 + budgets.retries := exhausted
        omega
      rw [finalNotes, if_neg fun asked => unasked asked.1]
      exact noted
  · have ends : ¬ Retried budgets outcomes last := by
      rw [← shouldRetryHook_fst request last state, stopped]
      simp
    refine ⟨⟨spec.reached, retried, ends⟩, spec.allowed, ?_⟩
    have asked : last ≤ budgets.retries := by
      have below : last < 1 + budgets.retries := early
      omega
    have isFinal : final =
      (shouldRetryHook budgets request last (outcomes last).context state).2 := left
    rw [finalNotes, isFinal]
    by_cases failed : isRetryDecisionFailure (outcomes last).context = true
    · have gaveUp : willRetry budgets last (outcomes last).context ≠ true := fun again =>
        ends ⟨failed, again⟩
      rw [if_pos ⟨asked, failed⟩, shouldRetryHook_notes request failed noted, if_neg gaveUp]
    · rw [if_neg fun both => failed both.2, shouldRetryHook, if_neg failed]
      exact noted

/-- The request is made as often as the policy asks, and reported as has been noted. -/
theorem performRequest_spec :
    IsLast budgets outcomes (performRequest budgets request outcomes states).made ∧
      (performRequest budgets request outcomes states).made ≤ 1 + budgets.retries ∧
      (performRequest budgets request outcomes states).metadata =
        { attempts := (performRequest budgets request outcomes states).made
          category := (finalNotes budgets outcomes
            (performRequest budgets request outcomes states).made).category
          terminalReason := (finalNotes budgets outcomes
            (performRequest budgets request outcomes states).made).terminalReason } ∧
      (performRequest budgets request outcomes states).log =
        completionLog (performRequest budgets request outcomes states).made
          (outcomes (performRequest budgets request outcomes states).made) := by
  obtain ⟨isLast, allowed, noted⟩ := attempted_spec budgets request outcomes states
  refine ⟨isLast, allowed, ?_⟩
  have counted : ∀ last, 1 ≤ last →
      (finalNotes budgets outcomes last).finalAttempt.getD
        (max 1 ((finalNotes budgets outcomes last).lastAttempt + 1)) = last := by
    intro last positive
    rw [finalNotes]
    split
    · rfl
    · simp only [notesBefore_finalAttempt, notesBefore_lastAttempt, Option.getD_none]
      omega
  simp only [performRequest, onCompleteHook, noted, Option.getD_some, counted _ isLast.1,
    and_self]

/-- The attempts of a request keep within the budgets, and are counted. -/
structure WithinBudgets (exchange : Exchange Request) : Prop where
  /-- Another attempt is made exactly after one that failed, can be retried, and came before the
  last one its own class allows. -/
  retried : ∀ attempt, 1 ≤ attempt → (attempt + 1 ≤ exchange.made ↔ attempt ≤ exchange.made ∧
    RetriedByOwnClass budgets attempt (outcomes attempt))
  made_pos : 1 ≤ exchange.made
  made_le : exchange.made ≤ max budgets.maxAttempts budgets.unknownMaxAttempts
  /-- A response is retried only on the statuses that are retryable. -/
  responses : ∀ attempt, 1 ≤ attempt → attempt < exchange.made →
    ∀ status, outcomes attempt = .responded status →
      status = httpTooManyRequests ∨ httpServerErrorMin ≤ status
  aborts : ∀ attempt, 1 ≤ attempt → attempt < exchange.made →
    ∀ message held, outcomes attempt ≠ .threw (.abortError message) held
  counted : exchange.metadata.attempts = exchange.made

/-- Wherever the classes of the attempts themselves lead, the hook decides by them too. -/
def DecidesByOwnClass : Prop :=
  ∀ attempt, 1 ≤ attempt →
    (∀ earlier, 1 ≤ earlier → earlier < attempt →
      RetriedByOwnClass budgets earlier (outcomes earlier)) →
    DecidedByOwnClass budgets attempt (outcomes attempt)

variable {budgets outcomes} in
/-- Up to the last attempt both ways of deciding lead to the same attempts. -/
theorem DecidesByOwnClass.retried (decides : DecidesByOwnClass budgets outcomes) {last : Nat}
    (isLast : IsLast budgets outcomes last) {attempt : Nat} (positive : 1 ≤ attempt)
    (within : attempt ≤ last) :
    Retried budgets outcomes attempt ↔ RetriedByOwnClass budgets attempt (outcomes attempt) := by
  induction attempt using Nat.strong_induction_on with
  | _ attempt ih =>
      refine (decidedByOwnClass_iff budgets outcomes attempt).mp ?_
      refine decides attempt positive fun earlier least before => ?_
      exact (ih earlier before least (by omega)).mp (isLast.2.1 earlier least (by omega))

variable {budgets outcomes} in
/-- After an attempt that was made another one is made exactly when it was retried. -/
theorem IsLast.succ_le_iff {last : Nat} (isLast : IsLast budgets outcomes last) {attempt : Nat}
    (positive : 1 ≤ attempt) :
    attempt + 1 ≤ last ↔ attempt ≤ last ∧ Retried budgets outcomes attempt := by
  constructor
  · intro made
    exact ⟨by omega, isLast.2.1 attempt positive made⟩
  · rintro ⟨made, retried⟩
    rcases Nat.eq_or_lt_of_le made with rfl | before
    · exact absurd retried isLast.2.2
    · exact before

omit [DecidableEq Request] in
variable {budgets outcomes} in
/-- Every attempt that the classes of the attempts lead to is made. -/
theorem WithinBudgets.made {exchange : Exchange Request}
    (within : WithinBudgets budgets outcomes exchange) {attempt : Nat} (positive : 1 ≤ attempt)
    (led : ∀ earlier, 1 ≤ earlier → earlier < attempt →
      RetriedByOwnClass budgets earlier (outcomes earlier)) :
    attempt ≤ exchange.made := by
  induction attempt with
  | zero => exact absurd positive (by decide)
  | succ previous ih =>
      rcases Nat.eq_zero_or_pos previous with rfl | least
      · exact within.made_pos
      · apply (within.retried previous least).mpr
        exact ⟨ih least fun earlier first before => led earlier first (by omega),
          led previous least (Nat.lt_succ_self previous)⟩

/-- The budgets are respected exactly when the hook decides by the classes of the attempts
themselves wherever these lead. -/
theorem retry_budgets_respected_iff :
    WithinBudgets budgets outcomes (performRequest budgets request outcomes states) ↔
      DecidesByOwnClass budgets outcomes := by
  obtain ⟨isLast, allowed, counted, _⟩ := performRequest_spec budgets request outcomes states
  generalize performRequest budgets request outcomes states = exchange at *
  constructor
  · intro within attempt positive led
    rw [decidedByOwnClass_iff]
    have byHook := isLast.succ_le_iff positive
    rw [within.retried attempt positive] at byHook
    simpa [within.made positive led] using byHook.symm
  · intro decides
    have retryable : ∀ attempt, 1 ≤ attempt → attempt < exchange.made →
        classifyError (outcomes attempt).context ≠ .nonRetryable := by
      intro attempt positive before
      have retried := isLast.2.1 attempt positive before
      exact ((retried_iff budgets outcomes attempt).mp retried).2.1
    constructor
    case retried =>
      intro attempt positive
      rw [isLast.succ_le_iff positive]
      exact and_congr_right fun made => decides.retried isLast positive made
    case made_pos => exact isLast.1
    case made_le =>
      have positive := budgets.maxAttempts_pos
      rw [RetryBudgets.retries] at allowed
      omega
    case responses =>
      intro attempt positive before status responded
      have retries := retryable attempt positive before
      by_contra other
      rw [responded, AttemptOutcome.context, classifyError, Option.bind_none, Option.elim_some,
        classifyResponseStatus, if_neg other] at retries
      exact retries rfl
    case aborts =>
      intro attempt positive before message held aborted
      have retries := retryable attempt positive before
      rw [aborted] at retries
      exact retries rfl
    case counted => rw [counted]

end Requests

/-! ### An error beside an earlier response -/

namespace Sample

/-- The budgets of the tests. -/
def retryBudgets : RetryBudgets where
  maxAttempts := 3
  unknownMaxAttempts := 2
  maxAttempts_pos := by decide
  unknownMaxAttempts_pos := by decide

/-- A server error, then an error that is not recognised, then a success. -/
def strayError : Nat → AttemptOutcome
  | 1 => .responded 500
  | 2 => .threw (.error "weird") (some 500)
  | _ => .responded 200

end Sample

/-- The error alone would end the request after two attempts, but the response it is held beside
has it made three times. -/
theorem Sample.strayError_exceeds_budget :
    (performRequest Sample.retryBudgets () Sample.strayError fun _ => none).made = 3 ∧
      classifyError (Sample.strayError 2).own = .unknown ∧
      attemptLimit Sample.retryBudgets .unknown = 2 ∧
      ¬ WithinBudgets Sample.retryBudgets Sample.strayError
        (performRequest Sample.retryBudgets () Sample.strayError fun _ => none) := by
  refine ⟨by decide, by decide, by decide, fun within => ?_⟩
  obtain ⟨_, _, _, below⟩ := (within.retried 2 (by decide)).mp (by decide)
  revert below
  decide

end ObjectProcessor
