import Mathlib.Data.Rat.Cast.Order
import ObjectProcessor.Library.Json
import ObjectProcessor.Library.Record

/-!
# Message contracts

A contract says which JSON values a consumer takes.  Texts are measured in
characters, numbers are bounded, and an object lists the properties it requires,
the contract of each, and whether it may hold others.
-/

namespace ObjectProcessor

/-- The object a builder sends: properties that are `undefined` are left out. -/
def Json.ofProperties (properties : List (String × Option Json)) : Json :=
  .obj (properties.filterMap fun property => property.2.map (Prod.mk property.1))

/-- A property of the object is what was listed for it, or absent. -/
theorem Json.get?_ofProperties {properties : List (String × Option Json)}
    (distinct : (properties.map Prod.fst).Nodup) (name : String) :
    (Json.ofProperties properties).get? name = (properties.lookup name).join := by
  rw [Json.ofProperties, Json.get?_obj]
  induction properties with
  | nil => rfl
  | cons property rest ih =>
      obtain ⟨key, value⟩ := property
      obtain ⟨new, restDistinct⟩ := List.nodup_cons.mp distinct
      rw [Library.lookup_cons_eq, List.filterMap_cons]
      cases value with
      | none =>
          simp only [Option.map_none, ih restDistinct]
          by_cases same : name = key
          · have absent : rest.lookup name = none :=
              Library.lookup_eq_none fun entry member equal =>
                new (List.mem_map.mpr ⟨entry, member, equal.trans same⟩)
            rw [if_pos same, absent]
            rfl
          · rw [if_neg same]
      | some value =>
          simp only [Option.map_some, Library.lookup_cons_eq, ih restDistinct]
          split <;> rfl

namespace JsonSchema

/-- A text of bounded length with a further rule. -/
def text (minLength maxLength : Nat) (rule : String → Bool) : Json → Bool
  | .str value => minLength ≤ value.length && value.length ≤ maxLength && rule value
  | _ => false

/-- A text of any length with a format. -/
def format (rule : String → Bool) : Json → Bool
  | .str value => rule value
  | _ => false

def number (minimum maximum : Nat) : Json → Bool
  | .num (.finite value) => (minimum : Rat) ≤ value && value ≤ (maximum : Rat)
  | _ => false

def integer (minimum : Nat) : Json → Bool
  | .num (.finite value) => value.den = 1 && (minimum : Int) ≤ value.num
  | _ => false

def object (required : List String) (additionalProperties : Bool)
    (properties : List (String × (Json → Bool))) : Json → Bool
  | .obj fields =>
      required.all (fun name => (fields.lookup name).isSome) &&
        properties.all (fun property => (fields.lookup property.1).all property.2) &&
        (additionalProperties ||
          fields.all fun field => properties.any fun property => property.1 = field.1)
  | _ => false

@[simp]
theorem text_str (minLength maxLength : Nat) (rule : String → Bool) (value : String) :
    text minLength maxLength rule (.str value) = true ↔
      minLength ≤ value.length ∧ value.length ≤ maxLength ∧ rule value = true := by
  simp [text, and_assoc]

@[simp]
theorem format_str (rule : String → Bool) (value : String) :
    format rule (.str value) = rule value := rfl

@[simp]
theorem number_int (minimum maximum value : Nat) :
    number minimum maximum (.int value) = true ↔ minimum ≤ value ∧ value ≤ maximum := by
  simp [number, Json.int]

@[simp]
theorem integer_int (minimum value : Nat) :
    integer minimum (.int value) = true ↔ minimum ≤ value := by
  simp [integer, Json.int]

end JsonSchema

end ObjectProcessor
