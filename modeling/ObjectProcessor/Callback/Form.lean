import ObjectProcessor.Library.Json
import ObjectProcessor.Library.Record

/-!
# The two readings of a callback form

`flattenFormValues` lists the values of the form with grouped uploads expanded
in place.  `normaliseFormFields` assigns every value to a name of its own in a
fresh object, numbering the items of a group.  Both read the same values in the
same order; they differ when two values are assigned to one name, and when
JavaScript lists the assigned names in another order.
-/

namespace ObjectProcessor

open Library

/-- `val !== null && typeof val === 'object' && 'fileId' in val`. -/
def isFileEntry (value : Json) : Bool := value.isObject && value.hasField "fileId"

/-- `typeof data === 'object' && data?.fileId`. -/
def hasFileId (value : Json) : Bool :=
  value.isObject && (value.get? "fileId").any Json.truthy

def flattenFormValues (form : Option Json) : List Json :=
  match form with
  | none => []
  | some value => if value.isObject then Json.flat value.values else []

/-- The assignments one form field gives rise to: each item of a group is
numbered from one, any other value keeps its field name. -/
def rekeyField (key : String) : Json → List (String × Json)
  | .arr items => items.zipIdx.map fun item => (key ++ "-" ++ toString (item.2 + 1), item.1)
  | value => [(key, value)]

/-- All assignments made while a form is normalised, in order. -/
def rekeyed (form : Json) : List (String × Json) :=
  form.entries.flatMap fun field => rekeyField field.1 field.2

/-- Assigning to `__proto__` replaces the prototype and creates no field. -/
def createsField (assignment : String × Json) : Bool := assignment.1 ≠ "__proto__"

def normaliseFormFields (form : Option Json) : Option Json :=
  match form with
  | none => none
  | some value =>
      if value.isObject then some (.obj (assignAll ((rekeyed value).filter createsField)))
      else some value

/-- `Object.values(normalisedForm ?? {}).filter(...)`. -/
def normalisedFiles (form : Option Json) : List Json :=
  ((normaliseFormFields form).elim [] Json.values).filter hasFileId

theorem map_snd_rekeyField (key : String) (value : Json) :
    (rekeyField key value).map Prod.snd = Json.flat [value] := by
  cases value with
  | arr items => simp [rekeyField, Json.flat, List.map_map, Function.comp_def]
  | _ => rfl

/-- Flattening a form lists the assigned values in the order of assignment. -/
theorem flat_values_eq (form : Json) :
    Json.flat form.values = (rekeyed form).map Prod.snd := by
  rw [Json.values, rekeyed, Json.flat, List.flatMap_map, List.map_flatMap]
  apply List.flatMap_congr
  intro field _
  rw [map_snd_rekeyField]
  simp [Json.flat]

theorem flattenFormValues_eq {form : Json} (isObject : form.isObject = true) :
    flattenFormValues (some form) = (rekeyed form).map Prod.snd := by
  rw [flattenFormValues, if_pos isObject, flat_values_eq]

/-- The files kept by normalisation, in the order JavaScript lists their names. -/
theorem normalisedFiles_eq {form : Json} (isObject : form.isObject = true) :
    normalisedFiles (some form) =
      ((Json.listed (assignAll ((rekeyed form).filter createsField))).map Prod.snd).filter
        hasFileId := by
  rw [normalisedFiles, normaliseFormFields, if_pos isObject]
  rfl

/-- A file that survives normalisation is one of the flattened values. -/
theorem mem_normalisedFiles {form : Json} (isObject : form.isObject = true) {file : Json}
    (member : file ∈ normalisedFiles (some form)) :
    file ∈ flattenFormValues (some form) ∧ hasFileId file = true := by
  rw [normalisedFiles_eq isObject] at member
  obtain ⟨listed, isFile⟩ := List.mem_filter.mp member
  obtain ⟨entry, inListing, rfl⟩ := List.mem_map.mp listed
  have assigned : entry ∈ (rekeyed form).filter createsField := by
    have inRecord := (Json.listed_perm _).mem_iff.mp inListing
    exact (survivors_sublist _).subset ((assignAll_perm_survivors _).mem_iff.mp inRecord)
  rw [flattenFormValues_eq isObject]
  exact ⟨List.mem_map_of_mem (List.mem_filter.mp assigned).1, isFile⟩

theorem isFileEntry_of_hasFileId {value : Json} (isFile : hasFileId value = true) :
    isFileEntry value = true := by
  simp only [hasFileId, Bool.and_eq_true, Option.any_eq_true] at isFile
  obtain ⟨isObject, fileId, found, _⟩ := isFile
  simp [isFileEntry, isObject, Json.hasField, found]

end ObjectProcessor
