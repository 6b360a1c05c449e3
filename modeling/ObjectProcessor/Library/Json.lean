import Mathlib.Data.List.Sort
import Mathlib.Data.Rat.Defs

/-!
# JSON values as JavaScript reads them

A parsed JSON body is a tree of these values.  `undefined`, which JSON cannot
express, is the absence of a value: reading a property yields an `Option`.
Objects keep their fields in insertion order; listing them puts the names that
are array indices first, in ascending order, as JavaScript does.
-/

namespace ObjectProcessor

/-- A double that JSON can denote.  A literal beyond the range of doubles, such
as `1e999`, is read as an infinity. -/
inductive JsNumber where
  | finite (value : Rat)
  | infinite (negative : Bool)
  deriving DecidableEq, Repr

inductive Json where
  | null
  | bool (value : Bool)
  | num (value : JsNumber)
  | str (value : String)
  | arr (items : List Json)
  | obj (fields : List (String × Json))
  deriving Repr

namespace Json

mutual

/-- Structural equality of values is decidable. -/
def decEq : (left right : Json) → Decidable (left = right)
  | .null, .null => isTrue rfl
  | .bool left, .bool right => decidable_of_iff (left = right) (by simp)
  | .num left, .num right => decidable_of_iff (left = right) (by simp)
  | .str left, .str right => decidable_of_iff (left = right) (by simp)
  | .arr left, .arr right => @decidable_of_iff _ (left = right) (by simp) (decEqItems left right)
  | .obj left, .obj right => @decidable_of_iff _ (left = right) (by simp) (decEqFields left right)
  | .null, .bool _ | .null, .num _ | .null, .str _ | .null, .arr _ | .null, .obj _
  | .bool _, .null | .bool _, .num _ | .bool _, .str _ | .bool _, .arr _ | .bool _, .obj _
  | .num _, .null | .num _, .bool _ | .num _, .str _ | .num _, .arr _ | .num _, .obj _
  | .str _, .null | .str _, .bool _ | .str _, .num _ | .str _, .arr _ | .str _, .obj _
  | .arr _, .null | .arr _, .bool _ | .arr _, .num _ | .arr _, .str _ | .arr _, .obj _
  | .obj _, .null | .obj _, .bool _ | .obj _, .num _ | .obj _, .str _ | .obj _, .arr _ =>
      isFalse (by simp)

def decEqItems : (left right : List Json) → Decidable (left = right)
  | [], [] => isTrue rfl
  | [], _ :: _ => isFalse (by simp)
  | _ :: _, [] => isFalse (by simp)
  | left :: lefts, right :: rights =>
      @decidable_of_iff _ (left = right ∧ lefts = rights) (by simp)
        (@instDecidableAnd _ _ (decEq left right) (decEqItems lefts rights))

def decEqFields : (left right : List (String × Json)) → Decidable (left = right)
  | [], [] => isTrue rfl
  | [], _ :: _ => isFalse (by simp)
  | _ :: _, [] => isFalse (by simp)
  | (leftName, left) :: lefts, (rightName, right) :: rights =>
      @decidable_of_iff _ (leftName = rightName ∧ left = right ∧ lefts = rights)
        (by simp [and_assoc])
        (@instDecidableAnd _ _ inferInstance
          (@instDecidableAnd _ _ (decEq left right) (decEqFields lefts rights)))

end

instance : DecidableEq Json := decEq

/-- An integer value. -/
def int (value : Int) : Json := .num (.finite value)

/-- `value.name`: only objects have named fields. -/
def get? : Json → String → Option Json
  | .obj fields, name => fields.lookup name
  | _, _ => none

/-- `name in value`, for names no prototype defines. -/
def hasField (value : Json) (name : String) : Bool := (value.get? name).isSome

/-- `typeof value === 'object' && value !== null`. -/
def isObject : Json → Bool
  | .arr _ => true
  | .obj _ => true
  | _ => false

/-- Zero, the empty string, `null` and `false` are the falsy JSON values. -/
def truthy : Json → Bool
  | .null => false
  | .bool value => value
  | .num (.finite value) => value ≠ 0
  | .num (.infinite _) => true
  | .str value => value ≠ ""
  | .arr _ => true
  | .obj _ => true

/-- `Number.isInteger(value)`. -/
def isInteger : Json → Bool
  | .num (.finite value) => value.den = 1
  | _ => false

mutual

/-- Whether `String(value)` returns: an object with a field `toString` of its own
has no callable `toString`, and the `valueOf` it inherits yields no primitive. -/
def convertsToString : Json → Bool
  | .obj fields => !fields.any fun field => field.1 = "toString"
  | .arr items => itemsConvertToString items
  | _ => true

def itemsConvertToString : List Json → Bool
  | [] => true
  | item :: rest => convertsToString item && itemsConvertToString rest

end

/-- The number a field name denotes when it is an array index. -/
def arrayIndex? (name : String) : Option Nat :=
  match name.toList with
  | [] => none
  | ['0'] => some 0
  | '0' :: _ => none
  | digits =>
      if digits.all Char.isDigit then
        let value := digits.foldl (fun acc digit => 10 * acc + (digit.toNat - 48)) 0
        if value < 4294967295 then some value else none
      else
        none

/-- Fields in the order JavaScript lists them. -/
def listed {α : Type*} (fields : List (String × α)) : List (String × α) :=
  (fields.filter fun field => (arrayIndex? field.1).isSome).insertionSort
      (fun left right => (arrayIndex? left.1).getD 0 ≤ (arrayIndex? right.1).getD 0) ++
    fields.filter fun field => (arrayIndex? field.1).isNone

/-- `Object.entries(value)`. -/
def entries : Json → List (String × Json)
  | .obj fields => listed fields
  | .arr items => items.zipIdx.map fun item => (toString item.2, item.1)
  | .str text => text.toList.zipIdx.map fun unit =>
      (toString unit.2, .str (String.singleton unit.1))
  | _ => []

/-- `Object.values(value)`. -/
def values (value : Json) : List Json := value.entries.map Prod.snd

/-- `values.flat()`: arrays are replaced by their items, one level deep. -/
def flat (values : List Json) : List Json :=
  values.flatMap fun value =>
    match value with
    | .arr items => items
    | other => [other]

/-- `a === b`; two objects of different parses are never the same reference. -/
def strictEq : Option Json → Option Json → Bool
  | none, none => true
  | some (.arr _), _ | some (.obj _), _ => false
  | left, right => left = right

mutual

/-- `String(value)` where it returns.  Two kinds of numbers differ from JavaScript: a number
that is not an integer is written as a fraction here, where JavaScript writes decimals, and
an integer of 22 digits or more is written out, where JavaScript writes an exponent. -/
def text : Json → String
  | .null => "null"
  | .bool value => toString value
  | .num (.finite value) =>
      if value.den = 1 then toString value.num else toString value.num ++ "/" ++ toString value.den
  | .num (.infinite negative) => if negative then "-Infinity" else "Infinity"
  | .str value => value
  | .arr items => ",".intercalate (itemTexts items)
  | .obj _ => "[object Object]"

/-- An array joins the texts of its items, with nothing for `null`. -/
def itemTexts : List Json → List String
  | [] => []
  | .null :: rest => "" :: itemTexts rest
  | item :: rest => text item :: itemTexts rest

end

/-- `/\s/` -/
def isSpace (char : Char) : Bool :=
  char.toNat ∈ [9, 10, 11, 12, 13, 32, 160, 5760, 8232, 8233, 8239, 8287, 12288, 65279] ||
    (8192 ≤ char.toNat && char.toNat ≤ 8202)

/-- `text.length`: characters beyond the basic plane take two code units. -/
def unitLength (text : String) : Nat :=
  text.toList.foldl (fun units char => units + if char.toNat < 65536 then 1 else 2) 0

/-- The longest front of a list of characters within a number of code units. -/
def takeUnits : Nat → List Char → List Char
  | _, [] => []
  | limit, char :: rest =>
      let units := if char.toNat < 65536 then 1 else 2
      if units ≤ limit then char :: takeUnits (limit - units) rest else []

/-- `text.slice(0, limit)`.  A pair of units cut in two is dropped whole. -/
def sliceText (limit : Nat) (text : String) : String :=
  String.ofList (takeUnits limit text.toList)

/-- The text a property has inside a template literal. -/
def templateText : Option Json → String
  | none => "undefined"
  | some value => value.text

@[simp]
theorem get?_obj (fields : List (String × Json)) (name : String) :
    (Json.obj fields).get? name = fields.lookup name := rfl

theorem isObject_of_get? {value field : Json} {name : String}
    (found : value.get? name = some field) : value.isObject = true := by
  cases value <;> first | rfl | cases found

/-- A text of the basic plane has one unit for each character. -/
theorem unitLength_eq_length {text : String}
    (basic : ∀ char ∈ text.toList, char.toNat < 65536) : unitLength text = text.length := by
  have counts : ∀ (chars : List Char) (units : Nat), (∀ char ∈ chars, char.toNat < 65536) →
      chars.foldl (fun units char => units + if char.toNat < 65536 then 1 else 2) units =
        units + chars.length := by
    intro chars
    induction chars with
    | nil => simp
    | cons char rest ih =>
        intro units allBasic
        obtain ⟨isBasic, restBasic⟩ := List.forall_mem_cons.mp allBasic
        rw [List.foldl_cons, ih _ restBasic, if_pos isBasic, List.length_cons]
        omega
  rw [unitLength, counts _ 0 basic, Nat.zero_add, String.length_toList]

/-- Cutting a text leaves something of it. -/
theorem sliceText_ne_empty {limit : Nat} {text : String} (wide : 2 ≤ limit)
    (nonempty : text ≠ "") : sliceText limit text ≠ "" := by
  unfold sliceText
  cases chars : text.toList with
  | nil => exact absurd (String.toList_eq_nil_iff.mp chars) nonempty
  | cons char rest =>
      have within : (if char.toNat < 65536 then 1 else 2) ≤ limit := by split <;> omega
      simp [takeUnits, within]

/-- A natural number is written in decimal digits. -/
theorem text_natural (value : Nat) : (Json.int value).text = value.repr := by
  simp only [Json.int, text, Rat.den_intCast, Rat.num_intCast, ↓reduceIte]
  rfl

/-- Listing the fields only reorders them. -/
theorem listed_perm {α : Type*} (fields : List (String × α)) : (listed fields).Perm fields := by
  have sorted := List.perm_insertionSort
    (fun left right : String × α => (arrayIndex? left.1).getD 0 ≤ (arrayIndex? right.1).getD 0)
    (fields.filter fun field => (arrayIndex? field.1).isSome)
  have rest : (fields.filter fun field => (arrayIndex? field.1).isNone) =
      fields.filter fun field => !(arrayIndex? field.1).isSome :=
    List.filter_congr fun field _ => by cases arrayIndex? field.1 <;> rfl
  rw [listed, rest]
  exact (sorted.append_right _).trans (List.filter_append_perm _ fields)

/-- The values of an object, with arrays expanded, are those of its fields. -/
theorem mem_flat_values {fields : List (String × Json)} {value : Json} :
    value ∈ flat (obj fields).values ↔ ∃ field ∈ fields, value ∈ flat [field.2] := by
  simp only [flat, values, entries, List.mem_flatMap, List.mem_map, List.mem_singleton,
    exists_eq_left]
  constructor
  · rintro ⟨_, ⟨field, isListed, rfl⟩, inValue⟩
    exact ⟨field, (listed_perm fields).mem_iff.mp isListed, inValue⟩
  · rintro ⟨field, member, inValue⟩
    exact ⟨field.2, ⟨field, (listed_perm fields).mem_iff.mpr member, rfl⟩, inValue⟩

/-- Without array indices among the names, fields are listed as inserted. -/
theorem listed_of_no_index {α : Type*} {fields : List (String × α)}
    (plain : ∀ field ∈ fields, arrayIndex? field.1 = none) : listed fields = fields := by
  have none_indexed : (fields.filter fun field => (arrayIndex? field.1).isSome) = [] :=
    List.filter_eq_nil_iff.mpr fun field member => by simp [plain field member]
  have all_plain : (fields.filter fun field => (arrayIndex? field.1).isNone) = fields :=
    List.filter_eq_self.mpr fun field member => by simp [plain field member]
  rw [listed, none_indexed, all_plain]
  rfl

/-- The names listed first are the array indices among them, in ascending order. -/
theorem map_fst_listed {α : Type*} (fields : List (String × α)) : (listed fields).map Prod.fst =
    ((fields.map Prod.fst).filter fun name => (arrayIndex? name).isSome).insertionSort
        (fun left right => (arrayIndex? left).getD 0 ≤ (arrayIndex? right).getD 0) ++
      (fields.map Prod.fst).filter fun name => (arrayIndex? name).isNone := by
  rw [listed, List.map_append, List.filter_map, List.filter_map]
  congr 1
  exact List.map_insertionSort _ _ _ _ fun _ _ _ _ => Iff.rfl

/-- The order of the names depends on the names alone. -/
theorem map_fst_listed_congr {α β : Type*} {fields : List (String × α)}
    {others : List (String × β)} (same : fields.map Prod.fst = others.map Prod.fst) :
    (listed fields).map Prod.fst = (listed others).map Prod.fst := by
  rw [map_fst_listed, map_fst_listed, same]

end Json

end ObjectProcessor
