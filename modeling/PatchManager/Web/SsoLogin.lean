import PatchManager.Web.Accounts

/-! # Single sign-on

`sso_login` and `sso_callback` of `sso.rs` with the documents of the provider that they keep, and
the service of everything that writes `users`.
-/

namespace PatchManager.Accounts

open PatchManager.Conc PatchManager.Auth

/-- What the programs take from the configuration and from the crates for texts in addresses. -/
structure FrontSettings extends AuthSettings where
  ssoCallbackUrl : String
  urlencode : String → String
  /-- the encoded digest of a verifier -/
  codeChallenge : String → String

/-! ## Documents of the provider -/

/-- The row that stands for a missing one. -/
def defaultOidcConfig : Settings.OidcConfig where
  enabled := false
  providerType := "azure"
  displayName := "Azure AD"
  discoveryUrl := ""
  clientId := ""
  clientSecretEncrypted := none
  clientSecretNonce := none
  redirectUri := ""
  scopes := "openid profile email"

def loadOidcConfig : Proc (Except ApiError Settings.OidcConfig) := do
  match ← perform .loadOidcConfig with
  | .error _ => return .error .database
  | .ok row => return .ok (row.getD defaultOidcConfig)

/-- `num_seconds`, towards zero. -/
def elapsedSeconds (now since : Time) : Int := (now - since).tdiv microsPerSecond

def discoveryCacheTtlSecs : Int := 3600
def jwksCacheTtlSecs : Int := 3600

/-- A text of a document, empty where it has none. -/
def textAt (doc : Json) (key : String) : String := ((doc.get? key).bind Json.asStr?).getD ""

def discoveryOf (doc : Json) (now : Time) : OidcDiscovery where
  issuer := textAt doc "issuer"
  authorizationEndpoint := textAt doc "authorization_endpoint"
  tokenEndpoint := textAt doc "token_endpoint"
  jwksUri := textAt doc "jwks_uri"
  userinfoEndpoint := (doc.get? "userinfo_endpoint").bind Json.asStr?
  fetchedAt := now

/-- The reason of a failed request is the text that the source makes of it. -/
def downloadDiscovery (url : String) : Proc (Except String OidcDiscovery) := do
  match ← perform (.getDiscovery url) with
  | .error reason => return .error reason
  | .ok doc =>
    let now ← ask .utcNow
    let discovery := discoveryOf doc now
    perform (.cacheDiscovery discovery)
    return .ok discovery

def fetchDiscovery : Proc (Except String OidcDiscovery) := do
  match ← loadOidcConfig with
  | .error _ => return .error "Failed to load OIDC config"
  | .ok config =>
    match ← perform .cachedDiscovery with
    | none => downloadDiscovery config.discoveryUrl
    | some disc =>
      let now ← ask .utcNow
      if elapsedSeconds now disc.fetchedAt < discoveryCacheTtlSecs then return .ok disc
      else downloadDiscovery config.discoveryUrl

def downloadJwks (uri : String) : Proc (Except String Json) := do
  match ← perform (.fetchJwks uri) with
  | .error reason => return .error reason
  | .ok jwks =>
    perform (.cacheJwks jwks)
    return .ok jwks

/-- The two fields of the cache are written together. -/
def currentJwks (uri : String) : Proc (Except String Json) := do
  match ← perform .cachedJwks with
  | none => downloadJwks uri
  | some (jwks, fetched) =>
    let now ← ask .utcNow
    if elapsedSeconds now fetched > jwksCacheTtlSecs then downloadJwks uri else return .ok jwks

/-- Modulus and exponent of the key with this identifier. -/
def findKey (jwks : Json) (kid : String) : Except String (String × String) := do
  let keys ← ((jwks.get? "keys").elim (.error "JWKS response missing 'keys' array") .ok)
  let keysArray ← (keys.asArr?.elim (.error "JWKS 'keys' is not an array") .ok)
  let jwk ← (keysArray.find? fun k => (k.get? "kid").bind Json.asStr? == some kid).elim
    (.error ("No matching JWK found for kid: " ++ kid)) .ok
  let n ← ((jwk.get? "n").bind Json.asStr?).elim (.error "JWK missing 'n' (modulus) field") .ok
  let e ← ((jwk.get? "e").bind Json.asStr?).elim (.error "JWK missing 'e' (exponent) field") .ok
  return (n, e)

def verifyIdToken (token : String) (config : Settings.OidcConfig) (discovery : OidcDiscovery) :
    Proc (Except String IdTokenClaims) := do
  match ← perform (.decodeHeader token) with
  | .error e => return .error ("Failed to decode JWT header: " ++ e)
  | .ok none => return .error "JWT header missing 'kid' field"
  | .ok (some kid) =>
    match ← currentJwks discovery.jwksUri with
    | .error e => return .error e
    | .ok jwks =>
      match findKey jwks kid with
      | .error e => return .error e
      | .ok (n, e) =>
        match ← perform (.decodingKey n e) with
        | .error e => return .error ("Failed to construct RSA decoding key: " ++ e)
        | .ok () =>
          match ← perform (.decodeIdToken token n e discovery.issuer config.clientId) with
          | .error e => return .error ("JWT signature verification failed: " ++ e)
          | .ok claims => return .ok claims

/-! ## Handlers -/

section handlers

variable (cfg : FrontSettings)

/-- The address a browser is sent to, at the provider. -/
def authUrl (config : Settings.OidcConfig) (discovery : OidcDiscovery) (codeChallenge stateToken : String) :
    String :=
  discovery.authorizationEndpoint ++ "?client_id=" ++ cfg.urlencode config.clientId ++
    "&response_type=code&redirect_uri=" ++ cfg.urlencode config.redirectUri ++ "&scope=" ++
    cfg.urlencode config.scopes ++ "&code_challenge=" ++ codeChallenge ++
    "&code_challenge_method=S256&state=" ++ stateToken

def ssoLogin : Proc (Except ApiError String) := do
  match ← loadOidcConfig with
  | .error e => return .error e
  | .ok config =>
    if !config.enabled then return .error ⟨403, "forbidden", "SSO is not enabled"⟩
    else if config.discoveryUrl.isEmpty then
      return .error ⟨403, "forbidden", "SSO discovery URL is not configured"⟩
    else
      match ← fetchDiscovery with
      | .error e => return .error (internalError ("Failed to fetch OIDC discovery: " ++ e))
      | .ok discovery =>
        let codeVerifier ← perform .generateVerifier
        let stateToken ← perform .generateState
        let now ← ask .utcNow
        perform (.insertSession stateToken { codeVerifier, createdAt := now })
        return .ok (authUrl cfg config discovery (cfg.codeChallenge codeVerifier) stateToken)

def errorRedirect (code message : String) : String :=
  cfg.ssoCallbackUrl ++ "?error=" ++ cfg.urlencode code ++ "&error_description=" ++ cfg.urlencode message

/-- `decrypt_client_secret`: no secret is the empty text. -/
def clientSecret (config : Settings.OidcConfig) : Proc (Except String String) := do
  match config.clientSecretEncrypted, config.clientSecretNonce with
  | some enc, some nonce => ask (.decrypt enc nonce)
  | _, _ => return .ok ""

def tokenForm (code : String) (config : Settings.OidcConfig) (session : SsoSession) (secret : String) :
    List (String × String) :=
  [("grant_type", "authorization_code"), ("code", code), ("redirect_uri", config.redirectUri),
    ("client_id", config.clientId), ("code_verifier", session.codeVerifier)] ++
    if secret.isEmpty then [] else [("client_secret", secret)]

/-- The code for an identity: the claims of the token that the provider gives for it. -/
def exchangeCode (code : String) (session : SsoSession) (config : Settings.OidcConfig) :
    Proc (Except (String × String) IdTokenClaims) := do
  match ← fetchDiscovery with
  | .error _ => return .error ("internal_error", "Failed to fetch OIDC discovery")
  | .ok discovery =>
    match ← ask .loadKey with
    | .error _ => return .error ("internal_error", "Failed to load encryption key")
    | .ok () =>
      match ← clientSecret config with
      | .error _ => return .error ("internal_error", "Failed to decrypt client_secret")
      | .ok secret =>
        match ← perform (.postToken discovery.tokenEndpoint (tokenForm code config session secret)) with
        | .error (.send e) => return .error ("sso_error", "Token exchange failed: " ++ e)
        | .error (.http status) => return .error ("sso_error", "Token exchange failed: HTTP " ++ status)
        | .error .parse => return .error ("internal_error", "Failed to parse token response")
        | .ok ⟨none⟩ => return .error ("sso_error", "No id_token in response")
        | .ok ⟨some idToken⟩ =>
          match ← verifyIdToken idToken config discovery with
          | .error _ => return .error ("internal_error", "Failed to verify id_token")
          | .ok claims => return .ok claims

/-- What `sso_callback` takes from the claims. -/
structure Identity where
  email : String
  name : String
  azureOid : Option String
  providerSubject : Option String
  preferredUsername : String

def nonempty (s : String) : Option String := if s.isEmpty then none else some s

def identityOf (claims : IdTokenClaims) : Except (String × String) Identity :=
  let email := claims.email.getD ""
  let oidcSub := claims.sub.getD ""
  let azureOid := claims.oid.getD ""
  if oidcSub.isEmpty && azureOid.isEmpty then .error ("sso_error", "Missing subject identifier in id_token")
  else if email.isEmpty then .error ("sso_error", "Missing email in id_token")
  else .ok
    { email, name := claims.name.getD "", azureOid := nonempty azureOid
      providerSubject := nonempty (if oidcSub.isEmpty then azureOid else oidcSub)
      preferredUsername := claims.preferredUsername.getD email }

def providerOf (providerType : String) : AuthProvider :=
  if providerType = "keycloak" then .keycloak else if providerType = "azure" then .azureSso else .oidc

def AuthProvider.text : AuthProvider → String
  | .localUser => "local"
  | .azureSso => "azure_sso"
  | .keycloak => "keycloak"
  | .oidc => "oidc"

/-- The account of an identity: the one of its address and provider, else the one of its address, which
    is linked to the provider, else a new one. -/
def ssoAccount (provider : AuthProvider) (who : Identity) : Proc (Except (String × String) DbUserForSso) := do
  match ← perform (.selectSsoUser who.email (some provider)) with
  | .error _ => return .error ("internal_error", "Database error")
  | .ok (some u) =>
    if !u.isActive then return .error ("account_disabled", "Account is disabled") else return .ok u
  | .ok none =>
    match ← perform (.selectSsoUser who.email none) with
    | .error _ => return .error ("internal_error", "Database error")
    | .ok (some existing) =>
      if !existing.isActive then return .error ("account_disabled", "Account is disabled")
      else
        match ← perform (.updateAccount
            (.linkProvider provider who.azureOid who.providerSubject existing.id)) with
        | .error _ => return .error ("internal_error", "Failed to link SSO account")
        | .ok _ =>
          return .ok { existing with displayName := if who.name.isEmpty then existing.displayName else who.name }
    | .ok none =>
      match ← perform (.insertUser
          { username := who.preferredUsername, displayName := who.name, email := who.email
            role := .reporter, authProvider := provider, azureOid := who.azureOid
            oidcSub := who.providerSubject }) with
      | .error _ => return .error ("internal_error", "Failed to create user")
      | .ok id =>
        return .ok
          { id, username := who.preferredUsername, displayName := who.name, role := "reporter"
            isActive := true, mfaEnabled := false }

/-- The tokens of an account, behind a code for the page that the browser is sent to. -/
def handOff (provider : AuthProvider) (user : DbUserForSso) (accessToken rawRefresh : String) :
    Proc String := do
  let userJson := Json.obj [("id", .str user.id.text), ("username", .str user.username),
    ("display_name", .str user.displayName), ("role", .str user.role),
    ("auth_provider", .str (AuthProvider.text provider)), ("mfa_enabled", .bool user.mfaEnabled)]
  let handoffCode ← perform .generateHandoffCode
  let now ← perform .instantNow
  perform (.insertHandoff handoffCode
    { accessToken, rawRefresh, userJson, accessTtl := cfg.accessTtlSecs.toNat
      expiresAt := now + Sso.handoffTtlSecs * microsPerSecond })
  return cfg.ssoCallbackUrl ++ "?handoff=" ++ handoffCode

/-- What follows once the provider has said who it is. -/
def signIn (provider : AuthProvider) (who : Identity) : Proc (Except (String × String) String) := do
  match ← ssoAccount provider who with
  | .error e => return .error e
  | .ok user =>
    match ← perform (.updateAccount (.recordSsoLogin who.azureOid who.providerSubject user.id)) with
    | .error _ => return .error ("internal_error", "Database error")
    | .ok _ =>
      match ← call (ssoTokens cfg.toAuthSettings user.id user.username user.role) with
      | .error message => return .error ("internal_error", message)
      | .ok (accessToken, rawRefresh) => return .ok (← handOff cfg provider user accessToken rawRefresh)

def callbackOf (code state : String) : Proc (Except (String × String) String) := do
  match ← perform (.removeSession state) with
  | none => return .error ("bad_request", "Invalid or expired state token")
  | some session =>
    match ← loadOidcConfig with
    | .error _ => return .error ("internal_error", "Failed to load OIDC config")
    | .ok config =>
      match ← exchangeCode code session config with
      | .error e => return .error e
      | .ok claims =>
        match identityOf claims with
        | .error e => return .error e
        | .ok who => signIn cfg (providerOf config.providerType) who

/-- The redirect that answers, whether the login has worked or not. -/
def ssoCallback (code state error errorDescription : Option String) : Proc String := do
  match error, code, state with
  | some error, _, _ =>
    return errorRedirect cfg "sso_error"
      ("OIDC provider error: " ++ error ++ " - " ++ errorDescription.getD "")
  | none, none, _ => return errorRedirect cfg "bad_request" "Missing authorization code"
  | none, some _, none => return errorRedirect cfg "bad_request" "Missing state parameter"
  | none, some code, some state =>
    match ← callbackOf cfg code state with
    | .error (kind, message) => return errorRedirect cfg kind message
    | .ok url => return url

/-! ## The service -/

/-- A request goes on with the user its token stands for. -/
def withAuth {α : Type} (token : String) (handler : AuthUser → Proc α) : Proc Unit := do
  match ← perform (.requireAuth token) with
  | .error _ => return
  | .ok auth => let _ ← handler auth

def body : Fn → Proc Unit
  | .auth f => call (Auth.body cfg.toAuthSettings f)
  | .revokeUserSessions token id => withAuth token fun auth => call (revokeUserSessions auth id)
  | .createUser token username displayName email role password =>
    withAuth token fun auth => createUser auth username displayName email role password
  | .updateUser token id req => withAuth token fun auth => updateUser auth id req
  | .deleteUser token id => withAuth token fun auth => deleteUser auth id
  | .changeOwnPassword token currentPassword newPassword =>
    withAuth token fun auth => changeOwnPassword auth currentPassword newPassword
  | .adminResetPassword token id newPassword forcePasswordReset =>
    withAuth token fun auth => adminResetPassword auth id newPassword forcePasswordReset
  | .adminDisableMfa token id => withAuth token fun auth => adminDisableMfa auth id
  | .mfaVerify token secretBase32 code => withAuth token fun auth => mfaVerify auth secretBase32 code
  | .disableMfa token password => withAuth token fun auth => disableMfa auth password
  | .ssoLogin => do let _ ← ssoLogin cfg
  | .ssoCallback code state error errorDescription => do
    let _ ← ssoCallback cfg code state error errorDescription
  | .bootstrapAdminPassword => bootstrapAdminPassword

end handlers

inductive Change where
  | tick (micros : Nat)
  /-- the settings for single sign-on are saved -/
  | saveOidcConfig (config : Settings.OidcConfig)
  /-- one entry as the purging tasks pass over it -/
  | purgeSession (state : String)
  | purgeHandoff (code : String)

def change (w : World) : Change → World
  | .tick micros => ({ w.1 with now := w.1.now + micros }, w.2)
  | .saveOidcConfig config => (w.1, { w.2 with oidcConfig := some config })
  | .purgeSession state =>
    if (w.2.sessions.lookup state).any fun s => s.createdAt ≤ w.1.now - 10 * microsPerMinute then
      (w.1, { w.2 with sessions := w.2.sessions.erase state })
    else w
  | .purgeHandoff code =>
    if (w.2.handoffs.lookup code).any fun handoff => handoff.expiresAt ≤ w.1.now then
      (w.1, { w.2 with handoffs := w.2.handoffs.erase code })
    else w

/-- The functions of `Auth` that are given a user or an account are parts of other requests. -/
def isEntry : Fn → Bool
  | .auth (.ssoLogin _ _ _) | .auth (.revokeUserSessions _ _) => false
  | _ => true

/-- Everything that writes `users`.  What is in memory only is lost in a restart. -/
def front (cfg : FrontSettings) : Service World Ops Resps Fn where
  body := body cfg
  Answer := Answer
  Change := Change
  execute := executeAll cfg.sha256
  change := change
  isEntry := isEntry
  restart w := (w.1, { w.2 with sessions := ∅, handoffs := ∅, discovery := none, jwks := none })
  perishes _ := true

end PatchManager.Accounts
