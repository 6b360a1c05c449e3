import ObjectProcessor.Library.Schema

/-!
# The settings of authentication

The tenant list comes as JSON, from the environment or as a value.  The validator
of its format checks every entry on its own and converts nothing.
-/

namespace ObjectProcessor

open Schema

/-- An entry of `auth.entra.tenants`. -/
structure TenantConfig where
  tenantId : String
  allowedGroupIds : List String
  deriving DecidableEq, Repr

/-- `auth` of the configuration. -/
structure AuthSettings where
  entraEnabled : Bool
  tenants : List TenantConfig
  cognitoEnabled : Bool
  userPoolId : String
  clientIds : List String

/-- What the validator of the tenant list takes from outside. -/
structure TenantFormat where
  /-- `JSON.parse`; `none` when it throws. -/
  parse : String → Option Json
  /-- The rule Joi applies for `guid()`. -/
  isGuid : String → Bool

/-- An array of texts, at least one, that satisfy a rule. -/
def nonemptyTexts (rule : String → Bool) : Json → Bool
  | .arr items => items ≠ [] && items.all (string rule)
  | _ => false

/-- An item of `tenantSchema`. -/
def tenantItemSchema (format : TenantFormat) : Json → Bool :=
  object
    [ ("tenantId", required (string fun text => !text.toList.all Json.isSpace)),
      ("allowedGroupIds", required (nonemptyTexts format.isGuid)) ]

def tenantSchema (format : TenantFormat) : Json → Bool
  | .arr items => items.all (tenantItemSchema format)
  | _ => false

namespace entraTenantsArray

/-- Whether `validate` returns. -/
def validate (format : TenantFormat) : Json → Bool
  | .null | .str "" => true
  | .str text => (format.parse text).any (tenantSchema format)
  | value => tenantSchema format value

/-- `coerce`; `none` when it throws. -/
def coerce (format : TenantFormat) : Json → Option Json
  | .null | .str "" => some (.arr [])
  | .str text => format.parse text
  | value => some value

end entraTenantsArray

def readText : Json → Option String
  | .str text => some text
  | _ => none

/-- An entry as the code reads it. -/
def readTenant (entry : Json) : Option TenantConfig :=
  match entry.get? "tenantId", entry.get? "allowedGroupIds" with
  | some (.str tenantId), some (.arr groupIds) =>
      (groupIds.mapM readText).map fun allowedGroupIds => { tenantId, allowedGroupIds }
  | _, _ => none

/-- `config.get('auth.entra.tenants')`, read entry by entry. -/
def configuredTenants (format : TenantFormat) (value : Json) : Option (List TenantConfig) :=
  match entraTenantsArray.coerce format value with
  | some (.arr entries) => entries.mapM readTenant
  | _ => none

/-! ## What an accepted list holds -/

/-- The entry has a name and grants access to some group. -/
structure TenantConfig.Valid (format : TenantFormat) (tenant : TenantConfig) : Prop where
  named : tenant.tenantId.toList.all Json.isSpace = false
  grants : tenant.allowedGroupIds ≠ []
  guids : ∀ groupId ∈ tenant.allowedGroupIds, format.isGuid groupId = true

section Valid

variable {format : TenantFormat}

/-- Reading item by item succeeds when every item can be read. -/
theorem mapM_eq_some_of_forall {α β : Type*} {read : α → Option β} {P : β → Prop} {items : List α}
    (each : ∀ item ∈ items, ∃ result, read item = some result ∧ P result) :
    ∃ results, items.mapM read = some results ∧ results.length = items.length ∧
      ∀ result ∈ results, P result := by
  induction items with
  | nil => exact ⟨[], rfl, rfl, by simp⟩
  | cons item rest ih =>
      obtain ⟨result, isRead, holds⟩ := each item (List.mem_cons_self ..)
      obtain ⟨results, areRead, same, allHold⟩ := ih fun other member =>
        each other (List.mem_cons_of_mem _ member)
      refine ⟨result :: results, ?_, congrArg Nat.succ same,
        List.forall_mem_cons.mpr ⟨holds, allHold⟩⟩
      simp [List.mapM_cons, isRead, areRead]

theorem readTexts_of_valid {rule : String → Bool} {value : Json}
    (valid : nonemptyTexts rule value = true) :
    ∃ items texts, value = .arr items ∧ items.mapM readText = some texts ∧ texts ≠ [] ∧
      ∀ text ∈ texts, rule text = true := by
  cases value with
  | arr items =>
      simp only [nonemptyTexts, Bool.and_eq_true, decide_eq_true_eq, List.all_eq_true] at valid
      have each : ∀ item ∈ items, ∃ text, readText item = some text ∧ rule text = true := by
        intro item member
        obtain ⟨text, rfl, _, holds⟩ := string_eq_true (valid.2 item member)
        exact ⟨text, rfl, holds⟩
      obtain ⟨texts, areRead, same, allHold⟩ := mapM_eq_some_of_forall each
      refine ⟨items, texts, rfl, areRead, ?_, allHold⟩
      rintro rfl
      exact valid.1 (List.eq_nil_of_length_eq_zero same.symm)
  | _ => simp [nonemptyTexts] at valid

theorem readTenant_of_valid {entry : Json} (valid : tenantItemSchema format entry = true) :
    ∃ tenant, readTenant entry = some tenant ∧ tenant.Valid format := by
  have tenantId : (required (string fun text => !text.toList.all Json.isSpace)).admits
      (entry.get? "tenantId") = true := object_key valid (by simp)
  have groupIds : (required (nonemptyTexts format.isGuid)).admits
      (entry.get? "allowedGroupIds") = true := object_key valid (by simp)
  obtain ⟨value, hasTenantId, isText⟩ := admits_required tenantId
  obtain ⟨name, rfl, _, named⟩ := string_eq_true isText
  obtain ⟨value, hasGroupIds, areGuids⟩ := admits_required groupIds
  obtain ⟨items, texts, rfl, areRead, grants, guids⟩ := readTexts_of_valid areGuids
  refine ⟨⟨name, texts⟩, ?_, by simpa using named, grants, guids⟩
  simp [readTenant, hasTenantId, hasGroupIds, areRead]

theorem readTenants_of_valid {value : Json} (valid : tenantSchema format value = true) :
    ∃ entries tenants, value = .arr entries ∧ entries.mapM readTenant = some tenants ∧
      ∀ tenant ∈ tenants, tenant.Valid format := by
  cases value with
  | arr entries =>
      have each := fun entry member => readTenant_of_valid (List.all_eq_true.mp valid entry member)
      obtain ⟨tenants, areRead, _, allValid⟩ := mapM_eq_some_of_forall each
      exact ⟨entries, tenants, rfl, areRead, allValid⟩
  | _ => simp [tenantSchema] at valid

/-- An accepted list is read in full, and every entry of it is valid. -/
theorem configuredTenants_of_valid {value : Json}
    (valid : entraTenantsArray.validate format value = true) :
    ∃ tenants, configuredTenants format value = some tenants ∧
      ∀ tenant ∈ tenants, tenant.Valid format := by
  unfold configuredTenants entraTenantsArray.coerce
  unfold entraTenantsArray.validate at valid
  split at valid
  · exact ⟨[], rfl, by simp⟩
  · exact ⟨[], rfl, by simp⟩
  · rename_i text nonempty
    obtain ⟨parsed, isParsed, isValid⟩ := (Option.any_eq_true _ _).mp valid
    obtain ⟨entries, tenants, rfl, areRead, allValid⟩ := readTenants_of_valid isValid
    refine ⟨tenants, ?_, allValid⟩
    simp only [isParsed]
    exact areRead
  · obtain ⟨entries, tenants, rfl, areRead, allValid⟩ := readTenants_of_valid valid
    exact ⟨tenants, areRead, allValid⟩

end Valid

end ObjectProcessor
