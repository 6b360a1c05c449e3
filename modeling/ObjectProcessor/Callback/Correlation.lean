import ObjectProcessor.Callback.Schema

/-!
# Joining a callback to its upload

The journey identifier minted at initiate comes back inside the metadata of the
callback.  It is split off, and trusted only if a stored session carries it with
the same business identifiers; otherwise a fresh identifier is used.
-/

namespace ObjectProcessor

/-- A document of the sessions collection. -/
structure Session where
  uploadId : Json
  journeyId : Option String
  metadata : Json
  timestamp : Time
  deriving DecidableEq

/-- The journey identifier, and the metadata without it. -/
def splitJourneyId (metadata : Option Json) : Option Json × Json :=
  let value := metadata.getD .null
  (value.get? journeyIdKey, .obj (value.entries.filter fun field => field.1 ≠ journeyIdKey))

def isValidJourneyId (cfg : Config) : Option Json → Option String
  | some (.str text) => if text ≠ "" && cfg.isUuidV4 text then some text else none
  | _ => none

def getSessionByJourneyId (sessions : List Session) (journeyId : String) : Option Session :=
  sessions.find? fun session => session.journeyId = some journeyId

/-- The session holds the identifiers the callback carries. -/
def sessionMatches (session : Session) (payloadMetadata : Json) : Bool :=
  Json.strictEq (session.metadata.get? "sbi") (payloadMetadata.get? "sbi") &&
    Json.strictEq (session.metadata.get? "submissionId") (payloadMetadata.get? "submissionId")

/-- `resolveJourneyId`.  The lookup sees some sessions or fails; `generated` is
what `randomUUID` returns. -/
def resolveJourneyId (cfg : Config) (lookup : Option (List Session)) (generated : String)
    (rawJourneyId : Option Json) (payloadMetadata : Json) : String :=
  match isValidJourneyId cfg rawJourneyId, lookup with
  | some journeyId, some sessions =>
      match getSessionByJourneyId sessions journeyId with
      | some session => if sessionMatches session payloadMetadata then journeyId else generated
      | none => generated
  | _, _ => generated

/-- `{ ...payload, metadata }` -/
def withMetadata (payload metadata : Json) : Json :=
  .obj (Library.assign payload.entries "metadata" metadata)

/-- `resolveCallbackCorrelation` -/
def resolveCallbackCorrelation (cfg : Config) (lookup : Option (List Session))
    (generated : String) (payload : Json) : String × Json :=
  let split := splitJourneyId (payload.get? "metadata")
  (resolveJourneyId cfg lookup generated split.1 split.2, withMetadata payload split.2)

/-- The payload handed on after the journey identifier is split off. -/
def strippedPayload (payload : Json) : Json :=
  withMetadata payload (splitJourneyId (payload.get? "metadata")).2

@[simp]
theorem resolveCallbackCorrelation_payload (cfg : Config) (lookup : Option (List Session))
    (generated : String) (payload : Json) :
    (resolveCallbackCorrelation cfg lookup generated payload).2 = strippedPayload payload := rfl

theorem strippedPayload_metadata (payload : Json) :
    (strippedPayload payload).get? "metadata" =
      some (splitJourneyId (payload.get? "metadata")).2 := by
  rw [strippedPayload, withMetadata, Json.get?_obj, Library.lookup_assign, if_pos rfl]

/-- Reading a name that is no array index ignores the order of the fields. -/
theorem lookup_listed {α : Type*} (fields : List (String × α)) {name : String}
    (plain : Json.arrayIndex? name = none) :
    (Json.listed fields).lookup name = fields.lookup name := by
  rw [Json.listed, List.lookup_append]
  have indexed : ((fields.filter fun field => (Json.arrayIndex? field.1).isSome).insertionSort
      fun left right => (Json.arrayIndex? left.1).getD 0 ≤
        (Json.arrayIndex? right.1).getD 0).lookup name = none := by
    apply Library.lookup_eq_none
    intro entry member same
    have kept := (List.mem_filter.mp ((List.mem_insertionSort _).mp member)).2
    rw [same, plain] at kept
    cases kept
  rw [indexed, Option.none_or]
  exact Library.lookup_filter (fun key => (Json.arrayIndex? key).isNone) (by simp [plain]) fields

/-- Splitting the journey identifier off leaves the other fields of the payload. -/
theorem strippedPayload_get? {payload : Json} (isObj : ∃ fields, payload = .obj fields)
    {name : String} (plain : Json.arrayIndex? name = none) (other : name ≠ "metadata") :
    (strippedPayload payload).get? name = payload.get? name := by
  obtain ⟨fields, rfl⟩ := isObj
  rw [strippedPayload, withMetadata, Json.get?_obj, Library.lookup_assign, if_neg other]
  exact lookup_listed fields plain

/-- The stripped metadata holds every business field it held before. -/
theorem splitJourneyId_get? (fields : List (String × Json)) {name : String}
    (plain : Json.arrayIndex? name = none) (other : name ≠ journeyIdKey) :
    (splitJourneyId (some (.obj fields))).2.get? name = fields.lookup name := by
  simp only [splitJourneyId, Option.getD_some, Json.get?_obj, Json.entries]
  rw [Library.lookup_filter (fun key => decide (key ≠ journeyIdKey)) (by simpa using other)]
  exact lookup_listed fields plain

/-- A name with a character that is no digit is not the key of an array item. -/
theorem ne_toString_of_not_digit {name : String} (char : Char) (member : char ∈ name.toList)
    (other : char.isDigit = false) (index : Nat) : toString index ≠ name := by
  rintro rfl
  have digits : (toString index).toList = Nat.toDigits 10 index := by
    change index.repr.toList = _
    rw [Nat.repr_eq_ofList_toDigits, String.toList_ofList]
  rw [digits] at member
  rw [Nat.isDigit_of_mem_toDigits (by decide) (by decide) member] at other
  cases other

/-- Spreading a value of any shape keeps the field of that name, if it has one. -/
theorem lookup_entries (value : Json) {name : String} (plain : Json.arrayIndex? name = none)
    (noItem : ∀ index : Nat, toString index ≠ name) :
    value.entries.lookup name = value.get? name := by
  cases value with
  | obj fields => exact lookup_listed fields plain
  | arr items =>
      refine Library.lookup_eq_none fun entry member same => ?_
      obtain ⟨item, _, rfl⟩ := List.mem_map.mp member
      exact noItem item.2 same
  | str text =>
      refine Library.lookup_eq_none fun entry member same => ?_
      obtain ⟨unit, _, rfl⟩ := List.mem_map.mp member
      exact noItem unit.2 same
  | _ => rfl

/-- What the metadata of a body holds under a name, whatever its shape. -/
theorem splitJourneyId_field (metadata : Option Json) {name : String}
    (plain : Json.arrayIndex? name = none) (noItem : ∀ index : Nat, toString index ≠ name)
    (other : name ≠ journeyIdKey) :
    (splitJourneyId metadata).2.get? name = metadata.bind (Json.get? · name) := by
  have value : (metadata.getD .null).get? name = metadata.bind (Json.get? · name) := by
    cases metadata <;> rfl
  simp only [splitJourneyId, Json.get?_obj]
  rw [Library.lookup_filter (fun key => decide (key ≠ journeyIdKey)) (by simpa using other),
    lookup_entries _ plain noItem, value]

theorem splitJourneyId_journey (metadata : Option Json) :
    (splitJourneyId metadata).1 = metadata.bind (Json.get? · journeyIdKey) := by
  cases metadata <;> rfl

/-! ## Metadata without a journey -/

theorem baseMetadataKeys_plain {cfg : Config} {key : String × Schema}
    (member : key ∈ baseMetadataKeys cfg) :
    Json.arrayIndex? key.1 = none ∧ key.1 ≠ journeyIdKey := by
  have plain : ∀ name ∈ (baseMetadataKeys cfg).map Prod.fst,
      Json.arrayIndex? name = none ∧ name ≠ journeyIdKey := by
    change ∀ name ∈ ["sbi", "crn", "frn", "submissionId", "type", "reference", "service", "uosr"],
      Json.arrayIndex? name = none ∧ name ≠ journeyIdKey
    decide
  exact plain key.1 (List.mem_map_of_mem member)

section Base

variable {cfg : Config} {metadata : Json}

/-- Valid metadata lists its fields as they came, and none of them is the journey's. -/
theorem baseMetadata_fields (valid : baseMetadataSchema cfg metadata = true) :
    ∃ fields, metadata = .obj fields ∧
      ∀ field ∈ fields, Json.arrayIndex? field.1 = none ∧ field.1 ≠ journeyIdKey := by
  obtain ⟨fields, rfl, named, _⟩ := Schema.object_eq_true valid
  refine ⟨fields, rfl, fun field member => ?_⟩
  obtain ⟨key, isKey, same⟩ := named field member
  exact same ▸ baseMetadataKeys_plain isKey

theorem baseMetadata_no_journey (valid : baseMetadataSchema cfg metadata = true) :
    metadata.get? journeyIdKey = none := by
  obtain ⟨fields, rfl, plain⟩ := baseMetadata_fields valid
  exact Library.lookup_eq_none fun field member => (plain field member).2

/-- The metadata of a valid callback is that of an initiate once the journey is split off. -/
theorem splitJourneyId_valid (valid : callbackMetadataSchema cfg metadata = true) :
    baseMetadataSchema cfg (splitJourneyId (some metadata)).2 = true := by
  obtain ⟨fields, rfl, named, admitted⟩ := Schema.object_eq_true valid
  simp only [baseMetadataSchema, Schema.object, splitJourneyId, Bool.and_eq_true, List.all_eq_true,
    List.any_eq_true, decide_eq_true_eq]
  constructor
  · intro field member
    obtain ⟨isListed, other⟩ := List.mem_filter.mp member
    obtain ⟨key, isKey, same⟩ := named field ((Json.listed_perm fields).mem_iff.mp isListed)
    rcases List.mem_append.mp isKey with base | journey
    · exact ⟨key, base, same⟩
    · rw [List.mem_singleton.mp journey] at same
      exact absurd same.symm (by simpa using other)
  · intro key isKey
    obtain ⟨plain, other⟩ := baseMetadataKeys_plain isKey
    have found := splitJourneyId_get? fields plain other
    simp only [splitJourneyId, Json.get?_obj] at found
    rw [found]
    exact admitted key (List.mem_append_left _ isKey)

end Base

/-! ## Which identifier is resolved -/

section Resolution

variable {cfg : Config} {lookup : Option (List Session)} {generated journeyId : String}
  {rawJourneyId : Option Json} {payloadMetadata : Json}

theorem isValidJourneyId_eq_some :
    isValidJourneyId cfg rawJourneyId = some journeyId ↔
      rawJourneyId = some (.str journeyId) ∧ journeyId ≠ "" ∧ cfg.isUuidV4 journeyId = true := by
  unfold isValidJourneyId
  split
  · rename_i text
    simp only [Bool.and_eq_true, decide_eq_true_eq, Option.ite_none_right_eq_some,
      Option.some.injEq, Json.str.injEq]
    constructor
    · rintro ⟨valid, rfl⟩
      exact ⟨rfl, valid⟩
    · rintro ⟨rfl, valid⟩
      exact ⟨valid, rfl⟩
  · rename_i noText
    simp only [reduceCtorEq, false_iff, not_and]
    rintro rfl
    exact absurd rfl (noText journeyId)

/-- A stored journey is resolved exactly when the callback names it and matches the
session the lookup finds for it. -/
theorem resolveJourneyId_eq_iff
    (minted : isValidJourneyId cfg (some (.str journeyId)) = some journeyId)
    (other : generated ≠ journeyId) :
    resolveJourneyId cfg lookup generated rawJourneyId payloadMetadata = journeyId ↔
      rawJourneyId = some (.str journeyId) ∧ ∃ sessions session, lookup = some sessions ∧
        getSessionByJourneyId sessions journeyId = some session ∧
        sessionMatches session payloadMetadata = true := by
  unfold resolveJourneyId
  constructor
  · intro resolved
    split at resolved
    · rename_i text sessions named
      obtain ⟨rfl, _⟩ := isValidJourneyId_eq_some.mp named
      split at resolved
      · rename_i session found
        split at resolved
        · rename_i agrees
          subst resolved
          exact ⟨rfl, sessions, session, rfl, found, agrees⟩
        · exact absurd resolved other
      · exact absurd resolved other
    · exact absurd resolved other
  · rintro ⟨rfl, sessions, session, rfl, found, agrees⟩
    simp [minted, found, agrees]

/-- Anything but a fresh identifier is the journey of a stored session. -/
theorem resolveJourneyId_generated_or_stored :
    resolveJourneyId cfg lookup generated rawJourneyId payloadMetadata = generated ∨
      ∃ sessions, lookup = some sessions ∧ ∃ session ∈ sessions, session.journeyId =
        some (resolveJourneyId cfg lookup generated rawJourneyId payloadMetadata) := by
  unfold resolveJourneyId
  split
  · rename_i text sessions named
    split
    · rename_i session found
      split
      · refine Or.inr ⟨sessions, rfl, session, List.mem_of_find?_eq_some found, ?_⟩
        simpa using List.find?_some found
      · exact Or.inl rfl
    · exact Or.inl rfl
  · exact Or.inl rfl

end Resolution

end ObjectProcessor
