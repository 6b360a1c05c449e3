import ObjectProcessor.Auth.Strategy
import ObjectProcessor.Library.Collection
import ObjectProcessor.Library.Uuid

/-!
# Which tokens are accepted

A token is accepted on the groups of the tenant that issued it, or on its client
identifier when the user pool issued it.  No issuer belongs to two tenants, or to a
tenant and the pool, so the two dispatches never cross.
-/

namespace ObjectProcessor

open Library

/-! ## Issuers tell their providers apart -/

theorem append_apart {front other rest tail : String} (index : Nat)
    (inFront : index < front.toList.length) (inOther : index < other.toList.length)
    (apart : front.toList[index]? ≠ other.toList[index]?) : front ++ rest ≠ other ++ tail := by
  intro same
  have chars := congrArg (fun text : String => text.toList[index]?) same
  simp only [String.toList_append, List.getElem?_append_left inFront,
    List.getElem?_append_left inOther] at chars
  exact apart chars

theorem mem_buildTenantIssuers {issuer tenantId : String} :
    issuer ∈ buildTenantIssuers tenantId ↔
      issuer = "https://sts.windows.net/" ++ (tenantId ++ "/") ∨
        issuer = "https://login.microsoftonline.com/" ++ (tenantId ++ "/v2.0") := by
  simp [buildTenantIssuers, String.append_assoc]

/-- No two tenants share an issuer. -/
theorem tenantId_eq_of_issuer {issuer left right : String}
    (ofLeft : issuer ∈ buildTenantIssuers left) (ofRight : issuer ∈ buildTenantIssuers right) :
    left = right := by
  have forms (first second : String) : "https://sts.windows.net/" ++ first ≠
      "https://login.microsoftonline.com/" ++ second :=
    append_apart 8 (by decide) (by decide) (by decide)
  rcases mem_buildTenantIssuers.mp ofLeft with rfl | rfl
  · rcases mem_buildTenantIssuers.mp ofRight with same | same
    · exact (String.append_left_inj _).mp ((String.append_right_inj _).mp same)
    · exact absurd same (forms _ _)
  · rcases mem_buildTenantIssuers.mp ofRight with same | same
    · exact absurd same.symm (forms _ _)
    · exact (String.append_left_inj _).mp ((String.append_right_inj _).mp same)

/-- The pool is no tenant. -/
theorem cognitoIssuer_not_mem (userPoolId tenantId : String) :
    cognitoIssuer userPoolId ∉ buildTenantIssuers tenantId := by
  have first (rest tail : String) : "https://cognito-idp." ++ rest ≠
      "https://sts.windows.net/" ++ tail :=
    append_apart 8 (by decide) (by decide) (by decide)
  have second (rest tail : String) : "https://cognito-idp." ++ rest ≠
      "https://login.microsoftonline.com/" ++ tail :=
    append_apart 8 (by decide) (by decide) (by decide)
  rw [mem_buildTenantIssuers]
  unfold cognitoIssuer
  simp only [String.append_assoc]
  exact fun form => form.elim (first _ _) (second _ _)

/-! ## The policy -/

/-- The type of the token is that of an access token, or it states none. -/
def AccessTokenType (payload : Json) : Prop :=
  ∀ typ, payload.get? "typ" = some typ → typ.truthy = true →
    ∃ text ∈ validTokenTypes, typ = .str text

def IssuedBy (payload : Json) (issuers : List String) : Prop :=
  ∃ issuer ∈ issuers, payload.get? "iss" = some (.str issuer)

/-- The token carries a group the entry allows. -/
def SharesGroup (payload : Json) (tenant : TenantConfig) : Prop :=
  ∃ groups, payload.get? "groups" = some (.arr groups) ∧
    ∃ groupId ∈ tenant.allowedGroupIds, Json.str groupId ∈ groups

/-- No later entry of the same tenant replaces the entry. -/
def InForce (tenants : List TenantConfig) (tenant : TenantConfig) : Prop :=
  ∃ front later, tenants = front ++ tenant :: later ∧
    ∀ other ∈ later, other.tenantId ≠ tenant.tenantId

def EntraGrants (settings : AuthSettings) (payload : Json) : Prop :=
  settings.entraEnabled = true ∧ ∃ tenant, InForce settings.tenants tenant ∧
    IssuedBy payload (buildTenantIssuers tenant.tenantId) ∧ SharesGroup payload tenant

def CognitoGrants (settings : AuthSettings) (payload : Json) : Prop :=
  settings.cognitoEnabled = true ∧ IssuedBy payload [cognitoIssuer settings.userPoolId] ∧
    ∃ clientId ∈ settings.clientIds, clientId ≠ "" ∧
      payload.get? "client_id" = some (.str clientId)

/-- With one entry for each tenant every entry is in force. -/
theorem inForce_iff_mem {tenants : List TenantConfig}
    (unique : UniqueBy TenantConfig.tenantId tenants) {tenant : TenantConfig} :
    InForce tenants tenant ↔ tenant ∈ tenants := by
  constructor
  · rintro ⟨front, later, rfl, _⟩
    simp
  · intro member
    obtain ⟨front, later, rfl⟩ := List.append_of_mem member
    rw [UniqueBy, List.map_append, List.map_cons] at unique
    have once := (List.nodup_cons.mp (List.nodup_append.mp unique).2.1).1
    exact ⟨front, later, rfl, fun other isLater same =>
      once (List.mem_map.mpr ⟨other, isLater, same⟩)⟩

/-! ## What the providers grant -/

section Providers

variable {payload : Json}

theorem isOtherTokenType_eq_false : isOtherTokenType payload = false ↔ AccessTokenType payload := by
  unfold isOtherTokenType AccessTokenType
  cases payload.get? "typ" with
  | none => simp
  | some typ =>
      simp only [Option.any_some, Bool.and_eq_false_imp, decide_eq_false_iff_not, not_not,
        List.mem_map, Option.some.injEq, forall_eq']
      refine forall_congr' fun _ => exists_congr fun text => and_congr_right fun _ => ?_
      exact eq_comm

theorem lookupText_eq_some {Value : Type} {table : List (String × Value)} {field : Option Json}
    {value : Value} :
    lookupText table field = some value ↔
      ∃ text, field = some (.str text) ∧ table.lookup text = some value := by
  unfold lookupText
  split
  · simp
  · rename_i noText
    simp only [reduceCtorEq, false_iff, not_exists, not_and]
    rintro text rfl
    exact absurd rfl (noText text)

/-- A token leads to the entry in force for the tenant that issued it. -/
theorem lookup_tenant {tenants : List TenantConfig} {tenant : TenantConfig} :
    lookupText (buildIssuerToTenantMap tenants) (payload.get? "iss") = some tenant ↔
      InForce tenants tenant ∧ IssuedBy payload (buildTenantIssuers tenant.tenantId) := by
  rw [lookupText_eq_some]
  constructor
  · rintro ⟨issuer, issued, found⟩
    obtain ⟨isOwn, front, later, split, none_later⟩ := lookup_dispatchTable_eq_some.mp found
    exact ⟨⟨front, later, split, fun other member same =>
      none_later other member (by rw [same]; exact isOwn)⟩, issuer, isOwn, issued⟩
  · rintro ⟨⟨front, later, split, none_later⟩, issuer, isOwn, issued⟩
    refine ⟨issuer, issued, lookup_dispatchTable_eq_some.mpr ⟨isOwn, front, later, split, ?_⟩⟩
    exact fun other member shared => none_later other member (tenantId_eq_of_issuer shared isOwn)

/-- The provider lets the token through. -/
def AuthProvider.Grants (provider : AuthProvider) (payload : Json) : Prop :=
  provider.getAllowedList payload ≠ [] ∧
    (provider.checkAllowed payload (provider.getAllowedList payload)).1 = true

theorem any_group_iff {tenant : TenantConfig} :
    ((tokenGroups payload).any fun group =>
      decide (group ∈ tenant.allowedGroupIds.map Json.str)) = true ↔
        SharesGroup payload tenant := by
  simp only [List.any_eq_true, decide_eq_true_eq, List.mem_map, SharesGroup]
  constructor
  · rintro ⟨_, member, groupId, allowed, rfl⟩
    unfold tokenGroups at member
    split at member
    · rename_i groups listed
      exact ⟨groups, listed, groupId, allowed, member⟩
    · cases member
  · rintro ⟨groups, listed, groupId, allowed, member⟩
    exact ⟨.str groupId, by simpa [tokenGroups, listed] using member, groupId, allowed, rfl⟩

theorem entra_grants_iff {tenants : List TenantConfig} :
    (getEntraAuthProvider tenants).Grants payload ↔
      ∃ tenant, InForce tenants tenant ∧
        IssuedBy payload (buildTenantIssuers tenant.tenantId) ∧ SharesGroup payload tenant := by
  simp only [AuthProvider.Grants, getEntraAuthProvider]
  constructor
  · rintro ⟨nonempty, allowed⟩
    cases found : lookupText (buildIssuerToTenantMap tenants) (payload.get? "iss") with
    | none => simp [found] at nonempty
    | some tenant =>
        obtain ⟨inForce, issued⟩ := lookup_tenant.mp found
        simp only [found, Option.map_some, Option.getD_some] at allowed
        exact ⟨tenant, inForce, issued, any_group_iff.mp allowed⟩
  · rintro ⟨tenant, inForce, issued, shares⟩
    simp only [lookup_tenant.mpr ⟨inForce, issued⟩, Option.map_some, Option.getD_some]
    have named := shares
    obtain ⟨_, _, groupId, allowed, _⟩ := named
    exact ⟨List.ne_nil_of_mem allowed, any_group_iff.mpr shares⟩

theorem cognito_grants_iff {settings : AuthSettings} {cognito : AuthProvider}
    (configured : getCognitoAuthProvider settings = some cognito) :
    cognito.Grants payload ↔ ∃ clientId ∈ settings.clientIds, clientId ≠ "" ∧
      payload.get? "client_id" = some (.str clientId) := by
  simp only [getCognitoAuthProvider, Option.ite_none_left_eq_some, Option.some.injEq] at configured
  obtain ⟨_, rfl⟩ := configured
  simp only [AuthProvider.Grants, Option.any_eq_true, Bool.and_eq_true, decide_eq_true_eq,
    List.mem_map]
  constructor
  · rintro ⟨_, _, found, truthy, clientId, listed, rfl⟩
    exact ⟨clientId, listed, by simpa [Json.truthy] using truthy, found⟩
  · rintro ⟨clientId, listed, nonempty, found⟩
    exact ⟨List.ne_nil_of_mem listed, .str clientId, found, by simpa [Json.truthy] using nonempty,
      clientId, listed, rfl⟩

end Providers

/-! ## The strategy -/

section Strategy

variable {payload : Json}

theorem refuse_isValid (errorMessage : String) (extra : LogContext) :
    (refuse errorMessage extra).isValid = false := by
  unfold refuse
  split <;> rfl

theorem validateToken_isValid_iff {table : List (String × AuthProvider)} :
    (validateToken table payload).isValid = true ↔ AccessTokenType payload ∧
      ∃ provider, lookupText table (payload.get? "iss") = some provider ∧
        provider.Grants payload := by
  rw [← isOtherTokenType_eq_false]
  simp only [validateToken]
  generalize lookupText table (payload.get? "iss") = found
  cases isOtherTokenType payload with
  | true => simp [refuse_isValid]
  | false =>
      cases found with
      | none => simp [refuse_isValid]
      | some provider =>
          simp only [Bool.false_eq_true, ↓reduceIte, true_and, Option.some.injEq,
            exists_eq_left', AuthProvider.Grants]
          by_cases nothing : provider.getAllowedList payload = []
          · simp [nothing, refuse_isValid]
          · simp only [nothing, ↓reduceIte, ne_eq, not_false_eq_true, true_and]
            split
            · rename_i allowed
              simp [allowed, AuthResult.isValid]
            · rename_i denied
              simp [denied, refuse_isValid]

variable {settings : AuthSettings} {providers : List AuthProvider}

/-- What `register` collects. -/
theorem authProviders_cases (collected : authProviders settings = some providers) :
    (settings.cognitoEnabled = true ∧ ∃ cognito,
      getCognitoAuthProvider settings = some cognito ∧
        providers = entraProviders settings ++ [cognito]) ∨
      (settings.cognitoEnabled = false ∧ providers = entraProviders settings) := by
  unfold authProviders at collected
  split at collected
  · rename_i enabled
    obtain ⟨cognito, configured, rfl⟩ := Option.map_eq_some_iff.mp collected
    exact Or.inl ⟨enabled, cognito, configured, rfl⟩
  · rename_i disabled
    cases collected
    exact Or.inr ⟨by simpa using disabled, rfl⟩

theorem mem_entraProviders {provider : AuthProvider} :
    provider ∈ entraProviders settings ↔ settings.entraEnabled = true ∧ settings.tenants ≠ [] ∧
      provider = getEntraAuthProvider settings.tenants := by
  unfold entraProviders
  split
  · rename_i enabled
    simp only [Bool.and_eq_true, decide_eq_true_eq] at enabled
    simp [enabled]
  · rename_i disabled
    simp only [Bool.and_eq_true, decide_eq_true_eq] at disabled
    simp only [List.not_mem_nil, false_iff]
    exact fun enabled => disabled ⟨enabled.1, enabled.2.1⟩

theorem mem_authProviders (collected : authProviders settings = some providers)
    {provider : AuthProvider} :
    provider ∈ providers ↔ provider ∈ entraProviders settings ∨
      (settings.cognitoEnabled = true ∧ getCognitoAuthProvider settings = some provider) := by
  rcases authProviders_cases collected with ⟨enabled, cognito, configured, rfl⟩ | ⟨disabled, rfl⟩
  · rw [List.mem_append, List.mem_singleton, configured, Option.some.injEq]
    exact or_congr_right ⟨fun same => ⟨enabled, same.symm⟩, fun found => found.2.symm⟩
  · simp [disabled]

theorem mem_entra_issuers {tenants : List TenantConfig} {issuer : String} :
    issuer ∈ (getEntraAuthProvider tenants).issuers ↔
      ∃ tenant ∈ tenants, issuer ∈ buildTenantIssuers tenant.tenantId :=
  mem_keys_dispatchTable

theorem cognito_issuers {cognito : AuthProvider}
    (configured : getCognitoAuthProvider settings = some cognito) :
    cognito.issuers = [cognitoIssuer settings.userPoolId] := by
  simp only [getCognitoAuthProvider, Option.ite_none_left_eq_some, Option.some.injEq] at configured
  obtain ⟨_, rfl⟩ := configured
  rfl

/-- No issuer belongs to two providers. -/
theorem authProviders_disjoint (collected : authProviders settings = some providers) :
    providers.Pairwise fun left right =>
      ∀ issuer ∈ left.issuers, issuer ∉ right.issuers := by
  have alone : (entraProviders settings).Pairwise fun left right =>
      ∀ issuer ∈ left.issuers, issuer ∉ right.issuers := by
    unfold entraProviders
    split
    · exact List.pairwise_singleton _ _
    · exact List.Pairwise.nil
  rcases authProviders_cases collected with ⟨_, cognito, configured, rfl⟩ | ⟨_, rfl⟩
  · refine List.pairwise_append.mpr ⟨alone, List.pairwise_singleton _ _, ?_⟩
    intro provider member last isLast issuer ofEntra ofCognito
    obtain ⟨_, _, rfl⟩ := mem_entraProviders.mp member
    obtain ⟨tenant, _, isOwn⟩ := mem_entra_issuers.mp ofEntra
    rw [List.mem_singleton.mp isLast, cognito_issuers configured, List.mem_singleton] at ofCognito
    exact cognitoIssuer_not_mem settings.userPoolId tenant.tenantId (ofCognito ▸ isOwn)
  · exact alone

/-- A token is dispatched to the provider that issued it. -/
theorem lookup_provider (collected : authProviders settings = some providers)
    {provider : AuthProvider} :
    lookupText (dispatchTable AuthProvider.issuers providers) (payload.get? "iss") =
        some provider ↔
      provider ∈ providers ∧ IssuedBy payload provider.issuers := by
  rw [lookupText_eq_some]
  constructor
  · rintro ⟨issuer, issued, found⟩
    obtain ⟨member, isOwn⟩ :=
      (lookup_dispatchTable_of_disjoint (authProviders_disjoint collected)).mp found
    exact ⟨member, issuer, isOwn, issued⟩
  · rintro ⟨member, issuer, isOwn, issued⟩
    exact ⟨issuer, issued, (lookup_dispatchTable_of_disjoint
      (authProviders_disjoint collected)).mpr ⟨member, isOwn⟩⟩

theorem validate_eq {strategy : AuthStrategy} (built : authStrategy settings = some strategy) :
    ∃ providers, authProviders settings = some providers ∧
      strategy.validate = validateToken (dispatchTable AuthProvider.issuers providers) := by
  obtain ⟨providers, collected, created⟩ := Option.bind_eq_some_iff.mp built
  simp only [createAuthStrategy, Option.ite_none_left_eq_some, Option.some.injEq] at created
  obtain ⟨_, rfl⟩ := created
  exact ⟨providers, collected, rfl⟩

theorem validate_isValid_iff {strategy : AuthStrategy}
    (built : authStrategy settings = some strategy) (payload : Json) :
    (strategy.validate payload).isValid = true ↔
      AccessTokenType payload ∧
        (EntraGrants settings payload ∨ CognitoGrants settings payload) := by
  obtain ⟨providers, collected, validates⟩ := validate_eq built
  rw [validates, validateToken_isValid_iff]
  refine and_congr_right fun _ => ⟨?_, ?_⟩
  · rintro ⟨provider, found, grants⟩
    obtain ⟨member, issued⟩ := (lookup_provider collected).mp found
    rcases (mem_authProviders collected).mp member with isEntra | ⟨enabled, configured⟩
    · obtain ⟨enabled, _, rfl⟩ := mem_entraProviders.mp isEntra
      exact Or.inl ⟨enabled, entra_grants_iff.mp grants⟩
    · rw [cognito_issuers configured] at issued
      exact Or.inr ⟨enabled, issued, (cognito_grants_iff configured).mp grants⟩
  · rintro (⟨enabled, grant⟩ | ⟨enabled, issued, listed⟩)
    · have granted := grant
      obtain ⟨tenant, ⟨front, later, split, _⟩, ⟨issuer, isOwn, issued⟩, _⟩ := granted
      have member : tenant ∈ settings.tenants := by simp [split]
      have isProvider := (mem_authProviders collected).mpr
        (Or.inl (mem_entraProviders.mpr ⟨enabled, List.ne_nil_of_mem member, rfl⟩))
      exact ⟨_, (lookup_provider collected).mpr
        ⟨isProvider, issuer, mem_entra_issuers.mpr ⟨tenant, member, isOwn⟩, issued⟩,
        entra_grants_iff.mpr grant⟩
    · rcases authProviders_cases collected with ⟨_, cognito, configured, _⟩ | ⟨disabled, _⟩
      · have isProvider := (mem_authProviders collected).mpr (Or.inr ⟨enabled, configured⟩)
        rw [← cognito_issuers configured] at issued
        exact ⟨cognito, (lookup_provider collected).mpr ⟨isProvider, issued⟩,
          (cognito_grants_iff configured).mpr listed⟩
      · rw [enabled] at disabled
        cases disabled

/-- Some provider is enabled, and the pool is configured if it is. -/
def Configured (settings : AuthSettings) : Prop :=
  (settings.cognitoEnabled = true → settings.userPoolId ≠ "") ∧
    (settings.entraEnabled = true ∧ settings.tenants ≠ [] ∨ settings.cognitoEnabled = true)

theorem authStrategy_of_configured (configured : Configured settings) :
    ∃ strategy, authStrategy settings = some strategy := by
  have created : ∀ providers : List AuthProvider, providers ≠ [] →
      ∃ strategy, createAuthStrategy providers = some strategy := by
    intro providers nonempty
    rw [createAuthStrategy, if_neg nonempty]
    exact ⟨_, rfl⟩
  unfold authStrategy authProviders
  split
  · rename_i enabled
    rw [getCognitoAuthProvider, if_neg (configured.1 enabled)]
    exact created _ (by simp)
  · rename_i disabled
    have entra := configured.2.resolve_right disabled
    exact created _ (List.ne_nil_of_mem (mem_entraProviders.mpr ⟨entra.1, entra.2, rfl⟩))

end Strategy

/-- A token is accepted exactly on the policy in force, and on that of its own issuer only. -/
theorem token_accepted_iff {format : TenantFormat} {value : Json}
    (valid : entraTenantsArray.validate format value = true) :
    ∃ tenants, configuredTenants format value = some tenants ∧
      ∀ settings, settings.tenants = tenants → Configured settings →
        ∃ strategy, authStrategy settings = some strategy ∧ ∀ payload,
          ((strategy.validate payload).isValid = true ↔ AccessTokenType payload ∧
            (EntraGrants settings payload ∨ CognitoGrants settings payload)) ∧
          -- With one entry for each tenant all of them are in force, whatever their order.
          (UniqueBy TenantConfig.tenantId tenants →
            ∀ tenant, InForce tenants tenant ↔ tenant ∈ tenants) ∧
          -- A tenant's token is accepted on the groups of that tenant only.
          (∀ tenantId, IssuedBy payload (buildTenantIssuers tenantId) →
            (strategy.validate payload).isValid = true → settings.entraEnabled = true ∧
              ∃ tenant ∈ tenants, tenant.tenantId = tenantId ∧ SharesGroup payload tenant) ∧
          -- A token of the pool is accepted on the client identifiers only.
          (IssuedBy payload [cognitoIssuer settings.userPoolId] →
            (strategy.validate payload).isValid = true → CognitoGrants settings payload) := by
  obtain ⟨tenants, areRead, _⟩ := configuredTenants_of_valid valid
  refine ⟨tenants, areRead, ?_⟩
  rintro settings rfl configured
  obtain ⟨strategy, built⟩ := authStrategy_of_configured configured
  refine ⟨strategy, built, fun payload => ?_⟩
  have accepts := validate_isValid_iff built payload
  refine ⟨accepts, fun unique tenant => inForce_iff_mem unique, ?_, ?_⟩
  · rintro tenantId ⟨issuer, isOwn, issued⟩ accepted
    rcases (accepts.mp accepted).2 with
      ⟨enabled, tenant, inForce, ⟨other, ofTenant, same⟩, shares⟩ | ⟨_, ⟨other, ofPool, same⟩, _⟩
    · rw [issued, Option.some.injEq, Json.str.injEq] at same
      obtain ⟨front, later, split, _⟩ := inForce
      exact ⟨enabled, tenant, by simp [split], tenantId_eq_of_issuer (same ▸ ofTenant) isOwn,
        shares⟩
    · rw [issued, Option.some.injEq, Json.str.injEq] at same
      rw [← same, List.mem_singleton] at ofPool
      exact absurd (ofPool ▸ isOwn) (cognitoIssuer_not_mem _ _)
  · rintro ⟨issuer, ofPool, issued⟩ accepted
    rcases (accepts.mp accepted).2 with ⟨_, tenant, _, ⟨other, ofTenant, same⟩, _⟩ | granted
    · rw [issued, Option.some.injEq, Json.str.injEq] at same
      rw [List.mem_singleton.mp ofPool] at same
      exact absurd (same ▸ ofTenant) (cognitoIssuer_not_mem _ _)
    · exact granted

namespace Sample

def tenantFormat : TenantFormat where
  parse _ := none
  isGuid := isUuid

def tenantA : String := "6f504113-6b64-43f2-ade9-242e05780007"
def groupA : String := "7c1d2e3f-0a1b-4c2d-8e3f-4a5b6c7d8e9f"
def groupB : String := "0b1c2d3e-4f5a-4b6c-9d7e-8f9a0b1c2d3e"

def tenant (tenantId groupId : String) : Json :=
  .obj [("tenantId", .str tenantId), ("allowedGroupIds", .arr [.str groupId])]

/-- Two entries of one tenant. -/
def tenantEntries : Json := .arr [tenant tenantA groupA, tenant tenantA groupB]

def authSettings : AuthSettings where
  entraEnabled := true
  tenants := [⟨tenantA, [groupA]⟩, ⟨tenantA, [groupB]⟩]
  cognitoEnabled := false
  userPoolId := ""
  clientIds := []

def token (typ groupId : String) : Json :=
  .obj
    [ ("iss", .str ("https://sts.windows.net/" ++ tenantA ++ "/")), ("typ", .str typ),
      ("groups", .arr [.str groupId]) ]

end Sample

theorem token_accepted_iff_sample :
    ∃ strategy, authStrategy Sample.authSettings = some strategy ∧
      (strategy.validate (Sample.token "JWT" Sample.groupB)).isValid = true := by
  have valid : entraTenantsArray.validate Sample.tenantFormat Sample.tenantEntries = true := by
    decide
  obtain ⟨tenants, areRead, accepts⟩ := token_accepted_iff valid
  have same : Sample.authSettings.tenants = tenants := by
    have found : configuredTenants Sample.tenantFormat Sample.tenantEntries =
        some Sample.authSettings.tenants := by decide
    exact Option.some.inj (found.symm.trans areRead)
  have configured : Configured Sample.authSettings := by
    unfold Configured
    decide
  obtain ⟨strategy, built, exactly⟩ := accepts Sample.authSettings same configured
  refine ⟨strategy, built, (exactly _).1.mpr ⟨?_, Or.inl ⟨rfl, ?_⟩⟩⟩
  · rintro typ found _
    exact ⟨"JWT", by decide, (Option.some.inj found).symm⟩
  · exact ⟨⟨Sample.tenantA, [Sample.groupB]⟩, ⟨[_], [], rfl, by simp⟩,
      ⟨_, List.mem_cons_self .., rfl⟩, [.str Sample.groupB], rfl, Sample.groupB, by simp, by simp⟩

/-- The later of two entries of one tenant replaces the earlier, and an empty token type counts
as none. -/
theorem Sample.replaced_entry_is_ignored :
    entraTenantsArray.validate Sample.tenantFormat Sample.tenantEntries = true ∧
    configuredTenants Sample.tenantFormat Sample.tenantEntries =
      some Sample.authSettings.tenants ∧
    ∃ strategy, authStrategy Sample.authSettings = some strategy ∧
      (∃ tenant ∈ Sample.authSettings.tenants,
        IssuedBy (Sample.token "JWT" Sample.groupA) (buildTenantIssuers tenant.tenantId) ∧
          SharesGroup (Sample.token "JWT" Sample.groupA) tenant) ∧
      (strategy.validate (Sample.token "JWT" Sample.groupA)).isValid = false ∧
      "" ∉ validTokenTypes ∧
      (strategy.validate (Sample.token "" Sample.groupB)).isValid = true := by
  refine ⟨by decide, by decide, _, rfl, ?_, by decide, by decide, by decide⟩
  exact ⟨⟨Sample.tenantA, [Sample.groupA]⟩, List.mem_cons_self .., ⟨_, List.mem_cons_self .., rfl⟩,
    [.str Sample.groupA], rfl, Sample.groupA, by simp, by simp⟩

end ObjectProcessor
