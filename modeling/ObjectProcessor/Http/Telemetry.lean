import ObjectProcessor.Http.Retry

/-!
# What the telemetry of a request tells

A report is truthful when its category and reason are those of the last attempt that
failed, and when a recovery is reported only of a request that succeeded.  Three slips
make reports untruthful: nothing is noted of the last attempt the larger budget allows,
every response after a retry counts as a recovery, and an error is noted by the response
of an earlier attempt that is still held beside it.
-/

namespace ObjectProcessor

/-- The last attempt that failed, of those made. -/
def LastFailed (outcomes : Nat → AttemptOutcome) (made attempt : Nat) : Prop :=
  (1 ≤ attempt ∧ attempt ≤ made) ∧ (outcomes attempt).failed = true ∧
    ∀ later, attempt < later → later ≤ made → (outcomes later).failed = false

/-- The category and the reason are those of the attempt itself. -/
def TellsOf (category terminalReason : String) (outcome : AttemptOutcome) : Prop :=
  category = toMetadataCategory (classifyError outcome.own) ∧
    terminalReason = buildTerminalReason outcome.own

/-- The report of a request tells how the request ended. -/
structure Truthful {Request : Type*} (outcomes : Nat → AttemptOutcome)
    (exchange : Exchange Request) : Prop where
  described : exchange.log ≠ .silent → ∀ attempt, LastFailed outcomes exchange.made attempt →
    TellsOf exchange.metadata.category exchange.metadata.terminalReason (outcomes attempt)
  recovered : ∀ statusCode, exchange.log = .recovered statusCode →
    ∃ status, outcomes exchange.made = .responded status ∧ status < httpClientErrorMin

/-- The attempt is noted as it was: no response is held beside an error, or the error is
recognised and its message reads like what is noted of that response. -/
def NotedAsIs : AttemptOutcome → Prop
  | .responded _ => True
  | .threw _ none => True
  | .threw thrown (some status) =>
      (classifyThrown thrown).isSome = true ∧ errorMessage thrown = httpReason status

/-- When the last attempt is reported as it ended: it was the only one and nothing is logged of
it; it succeeded, and the one before was noted as it was; or it threw an error that was noted as
it was, or that looks like what was noted before when the hook was not asked about it. -/
def EndsAsNoted (budgets : RetryBudgets) (outcomes : Nat → AttemptOutcome) (last : Nat) : Prop :=
  match outcomes last with
  | .responded status =>
      last = 1 ∨ status < httpClientErrorMin ∧ NotedAsIs (outcomes (last - 1))
  | .threw thrown _ =>
      if thrown.truthy then
        if last ≤ budgets.retries then NotedAsIs (outcomes last)
        else TellsOf (notesBefore outcomes last).category
          (notesBefore outcomes last).terminalReason (outcomes last)
      else last = 1

section Reports

variable {Request : Type*} {budgets : RetryBudgets} {outcomes : Nat → AttemptOutcome}

/-- What the hook notes tells of the attempt exactly when the attempt is noted as it was. -/
theorem tellsOf_context_iff (outcome : AttemptOutcome) :
    TellsOf (toMetadataCategory (classifyError outcome.context))
        (buildTerminalReason outcome.context) outcome ↔
      NotedAsIs outcome := by
  cases outcome with
  | responded status => exact iff_of_true ⟨rfl, rfl⟩ trivial
  | threw thrown held =>
      cases held with
      | none => exact iff_of_true ⟨rfl, rfl⟩ trivial
      | some status =>
          simp only [TellsOf, NotedAsIs, AttemptOutcome.context, AttemptOutcome.own,
            buildTerminalReason, classifyError, Option.bind_some, Option.elim_some,
            Option.elim_none]
          rw [eq_comm (a := httpReason status)]
          refine and_congr_left fun _ => ?_
          cases classifyThrown thrown with
          | some classification => simp
          | none =>
              -- The response has a class, and the error alone has none.
              rcases classifyResponseStatus_cases status with ⟨retryable, _⟩ | final
              · simp [retryable, toMetadataCategory]
              · simp [final, toMetadataCategory]

/-- What was retried has failed. -/
theorem Retried.failed {attempt : Nat} (retried : Retried budgets outcomes attempt) :
    (outcomes attempt).failed = true := by
  have isFailure := retried.1
  cases ends : outcomes attempt with
  | responded status =>
      simpa [ends, AttemptOutcome.context, AttemptOutcome.failed, isRetryDecisionFailure]
        using isFailure
  | threw => rfl

/-- After a success the last failure is the attempt before. -/
theorem lastFailed_iff_of_success {last : Nat} (isLast : IsLast budgets outcomes last)
    (succeeded : (outcomes last).failed = false) (several : last ≠ 1) (attempt : Nat) :
    LastFailed outcomes last attempt ↔ attempt = last - 1 := by
  have positive := isLast.1
  have failed := (isLast.2.1 (last - 1) (by omega) (by omega)).failed
  constructor
  · rintro ⟨⟨_, within⟩, isFailure, others⟩
    by_contra differ
    rcases Nat.eq_or_lt_of_le within with rfl | before
    · rw [succeeded] at isFailure
      cases isFailure
    · rw [others (last - 1) (by omega) (by omega)] at failed
      cases failed
  · rintro rfl
    refine ⟨⟨by omega, by omega⟩, failed, fun later after within => ?_⟩
    have same : later = last := by omega
    rwa [same]

theorem lastFailed_iff_eq {last : Nat} (positive : 1 ≤ last)
    (isFailure : (outcomes last).failed = true) (attempt : Nat) :
    LastFailed outcomes last attempt ↔ attempt = last := by
  constructor
  · rintro ⟨⟨_, within⟩, _, others⟩
    by_contra differ
    have later := others last (by omega) (Nat.le_refl last)
    rw [isFailure] at later
    cases later
  · rintro rfl
    exact ⟨⟨positive, Nat.le_refl _⟩, isFailure, fun later after within => by omega⟩

theorem truthful_of_silent {exchange : Exchange Request} (silent : exchange.log = .silent) :
    Truthful outcomes exchange :=
  ⟨fun logged => absurd silent logged, by simp [silent]⟩

/-- The report tells of the last attempt what has been noted. -/
structure ReportsNotes (budgets : RetryBudgets) (outcomes : Nat → AttemptOutcome)
    (exchange : Exchange Request) : Prop where
  isLast : IsLast budgets outcomes exchange.made
  category : exchange.metadata.category = (finalNotes budgets outcomes exchange.made).category
  terminalReason : exchange.metadata.terminalReason =
    (finalNotes budgets outcomes exchange.made).terminalReason
  logs : exchange.log = completionLog exchange.made (outcomes exchange.made)

namespace ReportsNotes

variable {exchange : Exchange Request} (reports : ReportsNotes budgets outcomes exchange)

include reports

/-- The one attempt before a success is told of as it was noted. -/
theorem tellsOf_iff_of_success
    (succeeded : isRetryDecisionFailure (outcomes exchange.made).context = false)
    (several : exchange.made ≠ 1) :
    TellsOf exchange.metadata.category exchange.metadata.terminalReason
        (outcomes (exchange.made - 1)) ↔
      NotedAsIs (outcomes (exchange.made - 1)) := by
  rw [← tellsOf_context_iff, reports.category, reports.terminalReason, finalNotes,
    if_neg (by simp [succeeded])]
  obtain ⟨earlier, same⟩ := Nat.exists_eq_add_of_le' (Nat.lt_of_le_of_ne reports.isLast.1
    (Ne.symm several))
  rw [same]
  rfl

/-- A response is logged as a recovery after a retry, and not at all without one. -/
theorem truthful_iff_of_response {status : Nat}
    (ends : outcomes exchange.made = .responded status) :
    Truthful outcomes exchange ↔ exchange.made = 1 ∨
      status < httpClientErrorMin ∧ NotedAsIs (outcomes (exchange.made - 1)) := by
  have logs := reports.logs
  have positive := reports.isLast.1
  rw [ends, completionLog] at logs
  by_cases only : exchange.made = 1
  · rw [if_neg (by omega)] at logs
    exact iff_of_true (truthful_of_silent logs) (Or.inl only)
  · rw [if_pos (by omega)] at logs
    rw [or_iff_right only]
    have tells (success : status < httpClientErrorMin) :=
      reports.tellsOf_iff_of_success
        (by simp [ends, AttemptOutcome.context, isRetryDecisionFailure, success]) only
    have isBefore (success : status < httpClientErrorMin) :=
      lastFailed_iff_of_success reports.isLast
        (by simp [ends, AttemptOutcome.failed, success]) only
    constructor
    · intro truthful
      obtain ⟨found, same, succeeded⟩ := truthful.recovered _ logs
      rw [ends] at same
      cases same
      refine ⟨succeeded, (tells succeeded).mp ?_⟩
      exact truthful.described (by simp [logs]) _ ((isBefore succeeded _).mpr rfl)
    · rintro ⟨succeeded, noted⟩
      refine ⟨fun _ attempt failed => ?_, fun _ _ => ⟨status, ends, succeeded⟩⟩
      rw [(isBefore succeeded attempt).mp failed]
      exact (tells succeeded).mpr noted

/-- A falsy value that is thrown after a retry is logged as a recovery, without a response. -/
theorem truthful_iff_of_falsy {thrown : Thrown} {held : Option Nat}
    (ends : outcomes exchange.made = .threw thrown held) (noError : thrown.truthy ≠ true) :
    Truthful outcomes exchange ↔ exchange.made = 1 := by
  have logs := reports.logs
  have positive := reports.isLast.1
  rw [ends, completionLog, if_neg noError] at logs
  by_cases only : exchange.made = 1
  · rw [if_neg (by omega)] at logs
    exact iff_of_true (truthful_of_silent logs) only
  · rw [if_pos (by omega)] at logs
    refine iff_of_false (fun truthful => ?_) only
    obtain ⟨status, same, _⟩ := truthful.recovered _ logs
    rw [ends] at same
    cases same

/-- A thrown error is the last failure, and is reported by what has been noted. -/
theorem truthful_iff_of_error {thrown : Thrown} {held : Option Nat}
    (ends : outcomes exchange.made = .threw thrown held) (isError : thrown.truthy = true) :
    Truthful outcomes exchange ↔
      TellsOf (finalNotes budgets outcomes exchange.made).category
        (finalNotes budgets outcomes exchange.made).terminalReason (outcomes exchange.made) := by
  have logs := reports.logs
  have isOwn := lastFailed_iff_eq reports.isLast.1
    (show (outcomes exchange.made).failed = true by rw [ends]; rfl)
  rw [ends, completionLog, if_pos isError] at logs
  rw [← reports.category, ← reports.terminalReason]
  constructor
  · intro truthful
    exact truthful.described (by simp [logs]) exchange.made ((isOwn _).mpr rfl)
  · intro tells
    refine ⟨fun _ attempt failed => ?_, by simp [logs]⟩
    rwa [(isOwn attempt).mp failed]

/-- A report of a last attempt is truthful exactly when the attempt ended as noted. -/
theorem truthful_iff_endsAsNoted :
    Truthful outcomes exchange ↔ EndsAsNoted budgets outcomes exchange.made := by
  rw [EndsAsNoted]
  cases ends : outcomes exchange.made with
  | responded status => exact reports.truthful_iff_of_response ends
  | threw thrown held =>
      by_cases isError : thrown.truthy = true
      · have isFailure : isRetryDecisionFailure (outcomes exchange.made).context = true := by
          simp [ends, AttemptOutcome.context, isRetryDecisionFailure, isError]
        dsimp only
        rw [reports.truthful_iff_of_error ends isError, finalNotes, if_pos isError, ← ends]
        by_cases asked : exchange.made ≤ budgets.retries
        · rw [if_pos ⟨asked, isFailure⟩, if_pos asked]
          exact tellsOf_context_iff _
        · rw [if_neg fun both => asked both.1, if_neg asked]
      · dsimp only
        rw [if_neg isError]
        exact reports.truthful_iff_of_falsy ends isError

end ReportsNotes

end Reports

/-- The telemetry of a request is truthful exactly when its last attempt ends as noted. -/
theorem telemetry_truthful_iff {Request : Type*} [DecidableEq Request] (budgets : RetryBudgets)
    (request : Request) (outcomes : Nat → AttemptOutcome)
    (states : Request → Option RetryState) :
    Truthful outcomes (performRequest budgets request outcomes states) ↔
      ∀ last, IsLast budgets outcomes last → EndsAsNoted budgets outcomes last := by
  obtain ⟨isLast, allowed, counted, logs⟩ := performRequest_spec budgets request outcomes states
  have category := congrArg RetryMetadata.category counted
  have terminalReason := congrArg RetryMetadata.terminalReason counted
  have reports : ReportsNotes budgets outcomes (performRequest budgets request outcomes states) :=
    ⟨isLast, category, terminalReason, logs⟩
  rw [reports.truthful_iff_endsAsNoted]
  constructor
  · intro noted last isOther
    rwa [isOther.unique isLast]
  · intro noted
    exact noted _ isLast

/-! ### Untruthful reports -/

namespace Sample

/-- Two server errors, then a connection that is reset. -/
def resetAtLast (attempt : Nat) : AttemptOutcome :=
  if attempt = 3 then .threw (.error "read ECONNRESET") (some 500) else .responded 500

/-- A server error, again and again. -/
def serverErrors (_ : Nat) : AttemptOutcome := .responded 500

end Sample

/-- The reset connection is reported as a server error; three server errors as a recovery; and an
error that is not recognised as the server error before it. -/
theorem telemetry_misleads :
    ((performRequest Sample.retryBudgets () Sample.resetAtLast fun _ => none).log =
          .terminal true "read ECONNRESET" ∧
        (performRequest Sample.retryBudgets () Sample.resetAtLast fun _ => none).metadata =
          { attempts := 3, category := "retryable", terminalReason := "http_500" } ∧
        ¬ Truthful Sample.resetAtLast
          (performRequest Sample.retryBudgets () Sample.resetAtLast fun _ => none)) ∧
      ((performRequest Sample.retryBudgets () Sample.serverErrors fun _ => none).log =
          .recovered (some 500) ∧
        ¬ Truthful Sample.serverErrors
          (performRequest Sample.retryBudgets () Sample.serverErrors fun _ => none)) ∧
      (performRequest Sample.retryBudgets () Sample.strayError fun _ => none).metadata =
          { attempts := 3, category := "retryable", terminalReason := "http_500" } ∧
        ¬ Truthful Sample.strayError
          (performRequest Sample.retryBudgets () Sample.strayError fun _ => none) := by
  refine ⟨⟨by decide, by decide, fun truthful => ?_⟩, ⟨by decide, fun truthful => ?_⟩, by decide,
    fun truthful => ?_⟩
  · have last : LastFailed Sample.resetAtLast
        (performRequest Sample.retryBudgets () Sample.resetAtLast fun _ => none).made 3 :=
      (lastFailed_iff_eq (by decide) (by decide) 3).mpr (by decide)
    have reason := (truthful.described (by decide) 3 last).2
    revert reason
    decide
  · obtain ⟨status, responded, succeeded⟩ := truthful.recovered (some 500) (by decide)
    cases responded
    revert succeeded
    decide
  · have last : LastFailed Sample.strayError
        (performRequest Sample.retryBudgets () Sample.strayError fun _ => none).made 2 := by
      refine ⟨by decide, by decide, fun later after within => ?_⟩
      have isThird : later = 3 := Nat.le_antisymm within after
      rw [isThird]
      decide
    have reason := (truthful.described (by decide) 2 last).2
    revert reason
    decide

end ObjectProcessor
