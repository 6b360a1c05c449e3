import ObjectProcessor.Library.Json

/-!
# Validation schemas for JSON values

A schema says whether a field must, may or must not be present, and which
values it accepts.  Validation is strict: no value is converted, an object may
hold only the keys its schema names, and a text is never empty.
-/

namespace ObjectProcessor

inductive Presence where
  | optional
  | required
  | forbidden
  deriving DecidableEq, Repr

structure Schema where
  presence : Presence
  accepts : Json → Bool

namespace Schema

/-- Whether validation passes for a field that may be absent. -/
def admits (schema : Schema) : Option Json → Bool
  | none => schema.presence ≠ .required
  | some value => schema.presence ≠ .forbidden && schema.accepts value

def optional (accepts : Json → Bool) : Schema := ⟨.optional, accepts⟩

def required (accepts : Json → Bool) : Schema := ⟨.required, accepts⟩

def forbidden : Schema := ⟨.forbidden, fun _ => true⟩

def anything : Json → Bool := fun _ => true

/-- A text with a further rule.  The empty text is refused throughout. -/
def string (rule : String → Bool) : Json → Bool
  | .str value => value ≠ "" && rule value
  | _ => false

def anyString : Json → Bool := string fun _ => true

/-- One of the listed texts.  A list that names none restricts nothing. -/
def valid (allowed : List String) : Json → Bool :=
  string fun value => allowed = [] ∨ value ∈ allowed

def boolean : Json → Bool
  | .bool _ => true
  | _ => false

/-- Numbers beyond this magnitude are refused as unsafe. -/
def maxSafeInteger : Nat := 9007199254740991

/-- An integer between two bounds. -/
def integer (least greatest : Nat) : Json → Bool
  | .num (.finite value) => value.den = 1 && least ≤ value.num && value.num ≤ greatest
  | _ => false

/-- An integer of any safe size. -/
def safeInteger : Json → Bool
  | .num (.finite value) => value.den = 1 && value.num.natAbs ≤ maxSafeInteger
  | _ => false

/-- The number a value denotes where validation is not strict: a text is converted, if it is
taken for a number. -/
def convertNumber (toNumber : String → Option Rat) : Json → Option Rat
  | .num (.finite value) => some value
  | .str text => toNumber text
  | _ => none

/-- A list of items of one kind. -/
def array (item : Json → Bool) : Json → Bool
  | .arr items => items.all item
  | _ => false

def anyObject : Json → Bool
  | .obj _ => true
  | _ => false

/-- An object with exactly the named keys, each under its own schema. -/
def object (keys : List (String × Schema)) : Json → Bool
  | .obj fields =>
      fields.all (fun field => keys.any fun key => key.1 = field.1) &&
        keys.all fun key => key.2.admits (fields.lookup key.1)
  | _ => false

theorem admits_required {accepts : Json → Bool} {field : Option Json}
    (admitted : (required accepts).admits field = true) :
    ∃ value, field = some value ∧ accepts value = true := by
  cases field with
  | none => simp [required, admits] at admitted
  | some value => exact ⟨value, rfl, by simpa [required, admits] using admitted⟩

theorem string_eq_true {rule : String → Bool} {value : Json}
    (accepted : string rule value = true) :
    ∃ text, value = .str text ∧ text ≠ "" ∧ rule text = true := by
  cases value with
  | str text =>
      simp only [string, Bool.and_eq_true, decide_eq_true_eq] at accepted
      exact ⟨text, rfl, accepted⟩
  | _ => simp [string] at accepted

theorem integer_eq_true {least greatest : Nat} {value : Json}
    (accepted : integer least greatest value = true) :
    ∃ number : Nat, value = .int number ∧ least ≤ number ∧ number ≤ greatest := by
  match value, accepted with
  | .num (.finite number), accepted =>
      simp only [integer, Bool.and_eq_true, decide_eq_true_eq] at accepted
      obtain ⟨⟨integral, low⟩, high⟩ := accepted
      obtain ⟨natural, same⟩ := Int.eq_ofNat_of_zero_le
        (Int.le_trans (Int.natCast_nonneg least) low)
      refine ⟨natural, ?_, by omega, by omega⟩
      have whole : number = ((natural : Int) : Rat) := by
        rw [← same]
        exact (Rat.den_eq_one_iff number).mp integral |>.symm
      rw [whole]
      rfl

theorem object_eq_true {keys : List (String × Schema)} {value : Json}
    (accepted : object keys value = true) :
    ∃ fields, value = .obj fields ∧
      (∀ field ∈ fields, ∃ key ∈ keys, key.1 = field.1) ∧
      ∀ key ∈ keys, key.2.admits (fields.lookup key.1) = true := by
  cases value with
  | obj fields =>
      simp only [object, Bool.and_eq_true, List.all_eq_true, List.any_eq_true,
        decide_eq_true_eq] at accepted
      exact ⟨fields, rfl, accepted⟩
  | _ => simp [object] at accepted

/-- Every key of an accepted object is admitted by its own schema. -/
theorem object_key {keys : List (String × Schema)} {value : Json}
    (accepted : object keys value = true) {name : String} {schema : Schema}
    (member : (name, schema) ∈ keys) : schema.admits (value.get? name) = true := by
  obtain ⟨fields, rfl, _, admitted⟩ := object_eq_true accepted
  exact admitted _ member

@[simp]
theorem required_some (accepts : Json → Bool) (value : Json) :
    (required accepts).admits (some value) = accepts value := by
  simp [required, admits]

@[simp]
theorem optional_some (accepts : Json → Bool) (value : Json) :
    (optional accepts).admits (some value) = accepts value := by
  simp [optional, admits]

/-- A required value may also be an optional one under a looser rule. -/
theorem admits_optional {accepts looser : Json → Bool} {field : Option Json}
    (admitted : (required accepts).admits field = true)
    (implies : ∀ value, accepts value = true → looser value = true) :
    (optional looser).admits field = true := by
  obtain ⟨value, rfl, accepted⟩ := admits_required admitted
  simpa [optional, admits] using implies value accepted

theorem anyString_of_string {rule : String → Bool} {value : Json}
    (accepted : string rule value = true) : anyString value = true := by
  obtain ⟨text, rfl, nonempty, _⟩ := string_eq_true accepted
  simpa [anyString, string] using nonempty

/-- An object stays accepted when every key it may hold is still named, and every key now
admits what it admitted. -/
theorem object_imp {keys looser : List (String × Schema)} {value : Json}
    (accepted : object keys value = true)
    (named : ∀ key ∈ keys, key.1 ∈ looser.map Prod.fst)
    (admitted : ∀ key ∈ looser, ∀ field,
      (∀ schema, (key.1, schema) ∈ keys → schema.admits field = true) →
        key.2.admits field = true) : object looser value = true := by
  obtain ⟨fields, rfl, known, holds⟩ := object_eq_true accepted
  rw [object, Bool.and_eq_true, List.all_eq_true, List.all_eq_true]
  constructor
  · intro field member
    obtain ⟨key, inKeys, same⟩ := known field member
    obtain ⟨other, isNamed, sameName⟩ := List.mem_map.mp (named key inKeys)
    exact List.any_eq_true.mpr ⟨other, isNamed, by simp [sameName, same]⟩
  · intro key member
    exact admitted key member _ fun schema inKeys => holds (key.1, schema) inKeys

end Schema

end ObjectProcessor
