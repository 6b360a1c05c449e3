import ObjectProcessor.Auth.Settings
import ObjectProcessor.Library.Dispatch

/-!
# The authentication strategy

Every enabled provider is folded into one strategy that dispatches on the issuer
of the token, and a provider with several tenants dispatches on it once more.
The signature, the issuer and the lifetime of the token have been verified when
`validate` runs.
-/

namespace ObjectProcessor

open Library

/-- `VALID_TOKEN_TYPES` -/
def validTokenTypes : List String := ["JWT", "at+jwt"]

/-- Fields folded into the log line of a refusal. -/
abbrev LogContext := List (String × Option Json)

structure AuthProvider where
  name : String
  jwksUris : List String
  issuers : List String
  getAllowedList : Json → List String
  checkAllowed : Json → List String → Bool × LogContext
  emptyListMessage : String
  unauthorisedMessage : String

inductive AuthResult where
  /-- `isValid: true`, with the credentials. -/
  | valid (token : Json) (principalId : Option Json) (provider : String)
  /-- `isValid: false` -/
  | invalid (errorMessage : String)
  /-- A value of the log line does not convert to a text. -/
  | threw
  deriving DecidableEq

def AuthResult.isValid : AuthResult → Bool
  | .valid .. => true
  | _ => false

/-- Refuse a token once the refusal is logged. -/
def refuse (errorMessage : String) (extra : LogContext) : AuthResult :=
  if extra.all fun field => field.2.all Json.convertsToString then .invalid errorMessage
  else .threw

/-- `map.get(value)`, for a map whose keys are texts. -/
def lookupText {Value : Type} (table : List (String × Value)) : Option Json → Option Value
  | some (.str text) => table.lookup text
  | _ => none

/-- The strategy options: signing keys, the issuers that are verified, and the last step
of the validation. -/
structure AuthStrategy where
  keys : List String
  issuers : List String
  validate : Json → AuthResult

/-- `payload.typ && !VALID_TOKEN_TYPES.includes(payload.typ)` -/
def isOtherTokenType (payload : Json) : Bool :=
  (payload.get? "typ").any fun typ => typ.truthy && typ ∉ validTokenTypes.map Json.str

/-- The `validate` function of the strategy. -/
def validateToken (issuerToProvider : List (String × AuthProvider)) (payload : Json) :
    AuthResult :=
  let issuer := payload.get? "iss"
  let provider := lookupText issuerToProvider issuer
  if isOtherTokenType payload then
    refuse "Provided token is not an access token"
      [("tokenType", payload.get? "typ"), ("issuer", issuer),
        ("strategy", provider.map fun provider => .str provider.name)]
  else
    match provider with
    | none => refuse "Token issuer is not recognised" [("issuer", issuer)]
    | some provider =>
        let allowedList := provider.getAllowedList payload
        if allowedList = [] then
          refuse provider.emptyListMessage [("strategy", some (.str provider.name))]
        else
          let (allowed, failureContext) := provider.checkAllowed payload allowedList
          if allowed then .valid payload (payload.get? "sub") provider.name
          else
            refuse provider.unauthorisedMessage
              (failureContext ++ [("strategy", some (.str provider.name))])

/-- `createAuthStrategy`, which throws without a provider. -/
def createAuthStrategy (providers : List AuthProvider) : Option AuthStrategy :=
  if providers = [] then none
  else
    let issuerToProvider := dispatchTable AuthProvider.issuers providers
    some
      { keys := (providers.flatMap AuthProvider.jwksUris).eraseDups
        issuers := issuerToProvider.map Prod.fst
        validate := validateToken issuerToProvider }

/-! ## Entra -/

/-- The issuers of both forms of a tenant's tokens. -/
def buildTenantIssuers (tenantId : String) : List String :=
  [ "https://sts.windows.net/" ++ tenantId ++ "/",
    "https://login.microsoftonline.com/" ++ tenantId ++ "/v2.0" ]

def buildIssuerToTenantMap (tenants : List TenantConfig) : List (String × TenantConfig) :=
  dispatchTable (fun tenant => buildTenantIssuers tenant.tenantId) tenants

/-- `payload.groups`, if it is an array. -/
def tokenGroups (payload : Json) : List Json :=
  match payload.get? "groups" with
  | some (.arr groups) => groups
  | _ => []

def getEntraAuthProvider (tenants : List TenantConfig) : AuthProvider :=
  let issuerToTenant := buildIssuerToTenantMap tenants
  { name := "entra"
    jwksUris := tenants.map fun tenant =>
      "https://login.microsoftonline.com/" ++ tenant.tenantId ++ "/discovery/v2.0/keys"
    issuers := issuerToTenant.map Prod.fst
    getAllowedList := fun payload =>
      ((lookupText issuerToTenant (payload.get? "iss")).map
        TenantConfig.allowedGroupIds).getD []
    checkAllowed := fun payload allowedGroupIds =>
      ((tokenGroups payload).any fun group => group ∈ allowedGroupIds.map Json.str,
        [ ("tokenGroups", some (.arr (tokenGroups payload))),
          ("requiredGroups", some (.arr (allowedGroupIds.map Json.str))),
          ("issuer", payload.get? "iss"),
          ("tenantId", (lookupText issuerToTenant (payload.get? "iss")).map
            fun tenant => .str tenant.tenantId) ])
    emptyListMessage := "No authorized security groups configured"
    unauthorisedMessage := "Token does not belong to an authorized Security Group" }

/-! ## Cognito -/

/-- `userPoolId.split('_')[0]` -/
def userPoolRegion (userPoolId : String) : String :=
  String.ofList (userPoolId.toList.takeWhile fun char => char ≠ '_')

def cognitoIssuer (userPoolId : String) : String :=
  "https://cognito-idp." ++ userPoolRegion userPoolId ++ ".amazonaws.com/" ++ userPoolId

/-- `getCognitoAuthProvider`, which throws without a user pool. -/
def getCognitoAuthProvider (settings : AuthSettings) : Option AuthProvider :=
  if settings.userPoolId = "" then none
  else
    let issuer := cognitoIssuer settings.userPoolId
    some
      { name := "cognito"
        jwksUris := [issuer ++ "/.well-known/jwks.json"]
        issuers := [issuer]
        getAllowedList := fun _ => settings.clientIds
        checkAllowed := fun payload clientIds =>
          ((payload.get? "client_id").any fun clientId =>
              clientId.truthy && clientId ∈ clientIds.map Json.str,
            [("clientId", payload.get? "client_id"), ("issuer", payload.get? "iss")])
        emptyListMessage := "No authorized Cognito client IDs configured"
        unauthorisedMessage :=
          "Token client_id is not in the list of authorized Cognito client IDs" }

/-! ## The plugin -/

/-- The provider of the configured tenants, if there are any. -/
def entraProviders (settings : AuthSettings) : List AuthProvider :=
  if settings.entraEnabled && settings.tenants ≠ [] then [getEntraAuthProvider settings.tenants]
  else []

/-- The providers `register` collects; `none` when it throws. -/
def authProviders (settings : AuthSettings) : Option (List AuthProvider) :=
  if settings.cognitoEnabled then
    (getCognitoAuthProvider settings).map fun cognito => entraProviders settings ++ [cognito]
  else
    some (entraProviders settings)

/-- The strategy `register` installs.  Without a provider it installs none, and every
route serves unauthenticated requests. -/
def authStrategy (settings : AuthSettings) : Option AuthStrategy :=
  (authProviders settings).bind createAuthStrategy

end ObjectProcessor
