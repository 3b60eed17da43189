import PatchManager.Auth.Session
import PatchManager.Conc.Among
import PatchManager.Text.Str
import PatchManager.Web.Handoff
import PatchManager.Web.Rbac
import PatchManager.Web.Settings

/-! # Accounts

The handlers of `users.rs` and those of `auth.rs` for the second factor, with
`bootstrap_admin_password` of `lib.rs`, and what `sso.rs` asks of its surroundings.

The requests that sign in are the ones of `Auth`; their operations act on the columns of `users`
that they know.  The other columns are kept next to these, under the same identifiers, and each
statement writes both.
-/

namespace PatchManager.Accounts

open PatchManager.Conc PatchManager.Auth

/-! ## Rows -/

/-- The columns of `users` by which a provider of identities knows the account. -/
structure Contact where
  id : Uuid
  email : String
  azureOid : Option String
  oidcSub : Option String

/-- `UNIQUE` of the two columns. -/
def Distinct (contacts : List Contact) : Prop :=
  (contacts.map Contact.email).Nodup ∧ (contacts.filterMap Contact.azureOid).Nodup

instance (contacts : List Contact) : Decidable (Distinct contacts) := inferInstanceAs (Decidable (_ ∧ _))

/-- What an `INSERT` gives; the other columns have their defaults. -/
structure NewUser where
  username : String
  displayName : String
  email : String
  role : UserRole
  authProvider : AuthProvider
  passwordHash : Option String := none
  azureOid : Option String := none
  oidcSub : Option String := none

def NewUser.row (new : NewUser) (id : Uuid) : User where
  id := id
  username := new.username
  displayName := new.displayName
  role := new.role
  authProvider := new.authProvider
  passwordHash := new.passwordHash
  totpSecretEncrypted := none
  totpSecretNonce := none
  mfaEnabled := false
  isActive := true
  forcePasswordReset := false
  failedLoginAttempts := 0
  lockedUntil := none
  lastLoginAt := none

def NewUser.contact (new : NewUser) (id : Uuid) : Contact :=
  { id, email := new.email, azureOid := new.azureOid, oidcSub := new.oidcSub }

/-! ## Statements -/

def adminPlaceholderHashPrefix : String := "$argon2id$v=19$m=65536,t=3,p=1$AAAAAAAAAAAAAAAA"

def isPlaceholder (hash : String) : Bool := adminPlaceholderHashPrefix.toList.isPrefixOf hash.toList

structure UpdateUserRequest where
  displayName : Option String
  email : Option String
  role : Option String
  isActive : Option Bool
  forcePasswordReset : Option Bool

/-- The role a request names, in letters of either case.  No letter beyond ASCII has one of the letters
    of these names as its lower case. -/
def parseRole (role : String) : UserRole :=
  let lower := Str.toAsciiLowercase role.toList
  if lower = "admin".toList then .admin
  else if lower = "reporter".toList then .reporter
  else .operator

/-- The `UPDATE`s of `users` outside of `Auth`. -/
inductive AccountUpdate where
  | edit (req : UpdateUserRequest) (id : Uuid)
  | changePassword (newHash : String) (id : Uuid)
  | resetPassword (newHash : String) (forcePasswordReset : Bool) (id : Uuid)
  | enableMfa (ciphertext nonce : List UInt8) (id : Uuid)
  | disableMfa (id : Uuid)
  | linkProvider (provider : AuthProvider) (azureOid oidcSub : Option String) (id : Uuid)
  | recordSsoLogin (azureOid oidcSub : Option String) (id : Uuid)
  | bootstrapPassword (newHash : String)

namespace AccountUpdate

def cond : AccountUpdate → User → Bool
  | edit _ id, u | changePassword _ id, u | resetPassword _ _ id, u | enableMfa _ _ id, u
  | disableMfa id, u | linkProvider _ _ _ id, u | recordSsoLogin _ _ id, u => u.id == id
  | bootstrapPassword _, u =>
    u.username == "admin" && u.authProvider == .localUser && u.passwordHash.any isPlaceholder

def assign (now : Time) : AccountUpdate → User → User
  | edit req _, u =>
    { u with displayName := req.displayName.getD u.displayName
             role := (req.role.map parseRole).getD u.role
             isActive := req.isActive.getD u.isActive
             forcePasswordReset := req.forcePasswordReset.getD u.forcePasswordReset }
  | changePassword newHash _, u => { u with passwordHash := some newHash, forcePasswordReset := false }
  | resetPassword newHash forcePasswordReset _, u =>
    { u with passwordHash := some newHash, forcePasswordReset }
  | enableMfa ciphertext nonce _, u =>
    { u with totpSecretEncrypted := some ciphertext, totpSecretNonce := some nonce, mfaEnabled := true }
  | disableMfa _, u =>
    { u with totpSecretEncrypted := none, totpSecretNonce := none, mfaEnabled := false }
  | linkProvider provider _ _ _, u => { u with authProvider := provider }
  | recordSsoLogin _ _ _, u => { u with lastLoginAt := some now }
  | bootstrapPassword newHash, u => { u with passwordHash := some newHash }

def assignContact : AccountUpdate → Contact → Contact
  | edit req id, c => if c.id = id then { c with email := req.email.getD c.email } else c
  | linkProvider _ azureOid oidcSub id, c | recordSsoLogin azureOid oidcSub id, c =>
    if c.id = id then { c with azureOid := c.azureOid.or azureOid, oidcSub := c.oidcSub.or oidcSub } else c
  | _, c => c

def update (s : AccountUpdate) (now : Time) : Sql.Update User := ⟨s.cond, s.assign now⟩

end AccountUpdate

/-! ## What single sign-on works with -/

structure SsoSession where
  codeVerifier : String
  createdAt : Time

structure OidcDiscovery where
  issuer : String
  authorizationEndpoint : String
  tokenEndpoint : String
  jwksUri : String
  userinfoEndpoint : Option String
  fetchedAt : Time

structure IdTokenClaims where
  email : Option String
  name : Option String
  sub : Option String
  oid : Option String
  preferredUsername : Option String

/-- What is left of the answer to a code, whose other fields nothing reads. -/
structure TokenResponse where
  idToken : Option String

inductive TokenError where
  | send (reason : String)
  | http (status : String)
  | parse

/-- The columns `sso_callback` selects. -/
structure DbUserForSso where
  id : Uuid
  username : String
  displayName : String
  role : String
  isActive : Bool
  mfaEnabled : Bool

def forSso (u : User) : DbUserForSso where
  id := u.id
  username := u.username
  displayName := u.displayName
  role := u.role.asStr
  isActive := u.isActive
  mfaEnabled := u.mfaEnabled

/-! ## Operations -/

inductive Op where
  /-- the middleware -/
  | requireAuth (token : String)
  | selectHash (id : Uuid)
  | userExists (id : Uuid)
  | insertUser (new : NewUser)
  | updateAccount (s : AccountUpdate)
  | deleteUser (id : Uuid)
  | checkCode (username secret code : String)
  | encrypt (plaintext : String)
  /-- the hash of the local account `admin`, when it can be read -/
  | selectAdminHash
  | generatePassword
  | printPassword (password : String)
  | loadOidcConfig
  | cachedDiscovery
  | getDiscovery (url : String)
  | cacheDiscovery (discovery : OidcDiscovery)
  | generateVerifier
  | generateState
  | insertSession (state : String) (session : SsoSession)
  | removeSession (state : String)
  | postToken (endpoint : String) (form : List (String × String))
  | decodeHeader (token : String)
  | cachedJwks
  | fetchJwks (uri : String)
  | cacheJwks (jwks : Json)
  | decodingKey (n e : String)
  | decodeIdToken (token n e issuer audience : String)
  /-- with any provider when none is given -/
  | selectSsoUser (email : String) (provider : Option AuthProvider)
  | instantNow
  | generateHandoffCode
  | insertHandoff (code : String) (handoff : Sso.SsoHandoff)

@[reducible] def Op.Resp : Op → Type
  | .requireAuth _ => Except ApiError AuthUser
  | .selectHash _ => Except String (Option String)
  | .userExists _ | .checkCode _ _ _ => Except String Bool
  | .insertUser _ => Except String Uuid
  | .updateAccount _ | .deleteUser _ => Except String Nat
  | .encrypt _ => Except String (List UInt8 × List UInt8)
  | .selectAdminHash => Option String
  | .generatePassword | .generateVerifier | .generateState | .generateHandoffCode => String
  | .loadOidcConfig => Except String (Option Settings.OidcConfig)
  | .cachedDiscovery => Option OidcDiscovery
  | .getDiscovery _ | .fetchJwks _ => Except String Json
  | .printPassword _ | .cacheDiscovery _ | .insertSession _ _ | .cacheJwks _ | .insertHandoff _ _ => Unit
  | .removeSession _ => Option SsoSession
  | .postToken _ _ => Except TokenError TokenResponse
  | .decodeHeader _ => Except String (Option String)
  | .cachedJwks => Option (Json × Time)
  | .decodingKey _ _ => Except String Unit
  | .decodeIdToken _ _ _ _ _ => Except String IdTokenClaims
  | .selectSsoUser _ _ => Except String (Option DbUserForSso)
  | .instantNow => Time

inductive Fn where
  | auth (f : Auth.Fn)
  | revokeUserSessions (token : String) (id : Uuid)
  | createUser (token : String) (username : String) (displayName : Option String) (email role password : String)
  | updateUser (token : String) (id : Uuid) (req : UpdateUserRequest)
  | deleteUser (token : String) (id : Uuid)
  | changeOwnPassword (token currentPassword newPassword : String)
  | adminResetPassword (token : String) (id : Uuid) (newPassword : String) (forcePasswordReset : Bool)
  | adminDisableMfa (token : String) (id : Uuid)
  | mfaVerify (token secretBase32 code : String)
  | disableMfa (token password : String)
  | ssoLogin
  | ssoCallback (code state error errorDescription : Option String)
  | bootstrapAdminPassword

abbrev Ops := Auth.Op ⊕ Op
abbrev Resps : Ops → Type := Sum.elim Auth.Op.Resp Op.Resp
abbrev Proc := Prog Ops Resps Fn

abbrev perform (o : Op) : Proc o.Resp := .op (.inr o) fun r => .ret r

/-- One operation of `Auth`. -/
abbrev ask (o : Auth.Op) : Proc o.Resp := .op (.inl o) fun r => .ret r

/-- A program of `Auth`. -/
abbrev call {α : Type} (p : Auth.Proc α) : Proc α := p.embed .auth

/-! ## The world -/

/-- A token the service has signed, with what it says. -/
structure Issued where
  token : String
  userId : Uuid
  username : String
  role : String
deriving DecidableEq

structure Data where
  contacts : List Contact := []
  issued : List Issued := []
  oidcConfig : Option Settings.OidcConfig := none
  discovery : Option OidcDiscovery := none
  jwks : Option (Json × Time) := none
  sessions : DashMap SsoSession := ∅
  handoffs : DashMap Sso.SsoHandoff := ∅
  /-- the states, verifiers, codes and passwords given out so far -/
  given : List String := []
  /-- what has been written to the journal -/
  printed : List String := []

abbrev World := Auth.World × Data

/-- The account of an address, if its provider is the one asked for. -/
def ssoUser (w : World) (email : String) (provider : Option AuthProvider) : Option User := do
  let contact ← Sql.lookup Contact.email email w.2.contacts
  let u ← w.1.user contact.id
  if provider.all (u.authProvider == ·) then some u else none

inductive Answer where
  | plain (a : Auth.Answer)
  | json (v : Json)
  | bytes (ciphertext nonce : List UInt8)
  | discovery (r : Except TokenError TokenResponse)
  | header (kid : Option String)
  | claims (claims : IdTokenClaims)

/-- `require_auth` with a token: its signature and its role have to be good, and the address that the
    request comes from can be refused whatever the token. -/
def bearer (d : Data) (token : String) : Option AuthUser := do
  let issued ← d.issued.find? (·.token == token)
  let role ← UserRole.fromStr issued.role
  return { userId := issued.userId, username := issued.username, role }

/-- What is new when an access token has been signed. -/
def Data.signed (d : Data) : (o : Auth.Op) → o.Resp → Data
  | .issueAccessToken userId username role _ _, .ok token =>
    { d with issued := { token, userId, username, role } :: d.issued }
  | _, _ => d

/-- Two tokens that say different things have different texts. -/
def Data.signs (d : Data) : (o : Auth.Op) → o.Resp → Bool
  | .issueAccessToken userId username role _ _, .ok token =>
    d.issued.all fun i => i.token != token || i == { token, userId, username, role }
  | _, _ => true

/-- A text that has not been given out before. -/
def Data.give (d : Data) (text : String) : Option Data :=
  if text ∈ d.given then none else some { d with given := text :: d.given }

def give (w : World) (text : String) : Option (String × World) := (w.2.give text).map fun d => (text, (w.1, d))

def World.update (w : World) (s : AccountUpdate) : World :=
  ({ w.1 with users := (s.update w.1.now).apply w.1.users },
    { w.2 with contacts := w.2.contacts.map s.assignContact })

def World.insert (w : World) (new : NewUser) (id : Uuid) : World :=
  ({ w.1 with users := w.1.users ++ [new.row id], ids := id :: w.1.ids },
    { w.2 with contacts := w.2.contacts ++ [new.contact id] })

/-- The row goes with the refresh tokens that belong to it. -/
def World.delete (w : World) (id : Uuid) : World :=
  ({ w.1 with users := w.1.users.filter (·.id ≠ id), tokens := w.1.tokens.filter (·.userId ≠ id) },
    { w.2 with contacts := w.2.contacts.filter (·.id ≠ id) })

def execute (w : World) : (o : Op) → Answer → Option (o.Resp × World)
  | .requireAuth _, .plain (.failed reason) => some (.error (unauthorized reason), w)
  | .requireAuth token, _ => (bearer w.2 token).map fun auth => (.ok auth, w)
  | .selectHash _, .plain (.failed reason) => some (.error reason, w)
  | .selectHash id, _ => some (.ok ((w.1.user id).bind User.passwordHash), w)
  | .userExists _, .plain (.failed reason) => some (.error reason, w)
  | .userExists id, _ => some (.ok (w.1.user id).isSome, w)
  | .insertUser _, .plain (.failed reason) => some (.error reason, w)
  | .insertUser new, .plain (.id id) =>
    if id ∉ w.1.ids ∧ (∀ u ∈ w.1.users, u.username ≠ new.username) ∧ Distinct (w.insert new id).2.contacts then
      some (.ok id, w.insert new id)
    else none
  | .updateAccount _, .plain (.failed reason) => some (.error reason, w)
  | .updateAccount s, _ =>
    if Distinct (w.update s).2.contacts then
      some (.ok ((s.update w.1.now).affected w.1.users), w.update s)
    else none
  | .deleteUser _, .plain (.failed reason) => some (.error reason, w)
  | .deleteUser id, _ => some (.ok (w.1.users.countP (·.id == id)), w.delete id)
  | .checkCode _ _ _, .plain (.failed reason) => some (.error reason, w)
  | .checkCode _ _ _, .plain (.truth b) => some (.ok b, w)
  | .encrypt _, .plain (.failed reason) => some (.error reason, w)
  | .encrypt _, .bytes ciphertext nonce => some (.ok (ciphertext, nonce), w)
  | .selectAdminHash, .plain (.failed _) => some (none, w)
  | .selectAdminHash, _ => some ((w.1.localUser "admin").bind User.passwordHash, w)
  | .generatePassword, .plain (.text password) => give w password
  | .printPassword password, _ => some ((), (w.1, { w.2 with printed := password :: w.2.printed }))
  | .loadOidcConfig, .plain (.failed reason) => some (.error reason, w)
  | .loadOidcConfig, _ => some (.ok w.2.oidcConfig, w)
  | .cachedDiscovery, _ => some (w.2.discovery, w)
  | .getDiscovery _, .plain (.failed reason) | .fetchJwks _, .plain (.failed reason) => some (.error reason, w)
  | .getDiscovery _, .json doc | .fetchJwks _, .json doc => some (.ok doc, w)
  | .cacheDiscovery discovery, _ => some ((), (w.1, { w.2 with discovery := some discovery }))
  | .generateVerifier, .plain (.text verifier) => give w verifier
  | .generateState, .plain (.text state) => give w state
  | .insertSession state session, _ =>
    some ((), (w.1, { w.2 with sessions := w.2.sessions.insert state session }))
  | .removeSession state, _ =>
    some (w.2.sessions.lookup state, (w.1, { w.2 with sessions := w.2.sessions.erase state }))
  | .postToken _ _, .discovery r => some (r, w)
  | .decodeHeader _, .plain (.failed reason) => some (.error reason, w)
  | .decodeHeader _, .header kid => some (.ok kid, w)
  | .cachedJwks, _ => some (w.2.jwks, w)
  | .cacheJwks jwks, _ => some ((), (w.1, { w.2 with jwks := some (jwks, w.1.now) }))
  | .decodingKey _ _, .plain (.failed reason) => some (.error reason, w)
  | .decodingKey _ _, _ => some (.ok (), w)
  | .decodeIdToken _ _ _ _ _, .plain (.failed reason) => some (.error reason, w)
  | .decodeIdToken _ _ _ _ _, .claims claims => some (.ok claims, w)
  | .selectSsoUser _ _, .plain (.failed reason) => some (.error reason, w)
  | .selectSsoUser email provider, _ => some (.ok ((ssoUser w email provider).map forSso), w)
  | .instantNow, _ => some (w.1.now, w)
  | .generateHandoffCode, .plain (.text code) => give w code
  | .insertHandoff code handoff, _ =>
    some ((), (w.1, { w.2 with handoffs := w.2.handoffs.insert code handoff }))
  | _, _ => none

/-- The operations of `Auth` leave the other columns alone. -/
def executeAll (sha256 : String → String) (w : World) : (o : Ops) → Answer → Option (Resps o × World)
  | .inl o, .plain a =>
    (Auth.execute sha256 w.1 o a).bind fun (r, w₁) =>
      if w.2.signs o r then some (r, (w₁, w.2.signed o r)) else none
  | .inl _, _ => none
  | .inr o, a => execute w o a

/-! ## Handlers -/

def adminRequired : ApiError := ⟨403, "forbidden", "Admin role required"⟩
def accessDenied : ApiError := ⟨403, "forbidden", "Access denied"⟩
def userNotFound : ApiError := ⟨404, "not_found", "User not found"⟩
def weakPassword (message : String) : ApiError := ⟨400, "weak_password", message⟩
def internalError (message : String) : ApiError := ⟨500, "internal_error", message⟩
def invalidPassword : ApiError := ⟨400, "invalid_password", "Current password is incorrect"⟩

def createUser (auth : AuthUser) (username : String) (displayName : Option String)
    (email role password : String) : Proc (Except ApiError Uuid) := do
  if !auth.role.isAdmin then return .error adminRequired
  else
    match validatePasswordStrength password with
    | .error msg => return .error (weakPassword msg)
    | .ok () =>
      match ← ask (.hashPassword password) with
      | .error reason => return .error (internalError reason)
      | .ok hash =>
        match ← perform (.insertUser
            { username, displayName := displayName.getD username, email, role := parseRole role
              authProvider := .localUser, passwordHash := some hash }) with
        | .error reason =>
          return .error ⟨409, "conflict",
            if Str.contains "unique".toList reason.toList then "Username or email already exists"
            else "Database error"⟩
        | .ok id => return .ok id

def updateUser (auth : AuthUser) (id : Uuid) (req : UpdateUserRequest) : Proc (Except ApiError Unit) := do
  if !auth.role.isAdmin && auth.userId != id then return .error accessDenied
  else if (req.role.isSome || req.isActive.isSome || req.forcePasswordReset.isSome) && !auth.role.isAdmin then
    return .error ⟨403, "forbidden", "Admin role required to change role, status, or force_password_reset"⟩
  else
    match ← perform (.updateAccount (.edit req id)) with
    | .error reason => return .error (internalError reason)
    | .ok rows => if rows = 0 then return .error userNotFound else return .ok ()

def deleteUser (auth : AuthUser) (id : Uuid) : Proc (Except ApiError Unit) := do
  if !auth.role.isAdmin then return .error adminRequired
  else if auth.userId = id then return .error ⟨400, "bad_request", "Cannot delete your own account"⟩
  else
    match ← perform (.deleteUser id) with
    | .error reason => return .error (internalError reason)
    | .ok rows => if rows = 0 then return .error userNotFound else return .ok ()

/-- The password of an account against what the request gives; no hash is the empty text. -/
def verifyOwnPassword (auth : AuthUser) (password : String) : Proc (Except ApiError Unit) := do
  match ← perform (.selectHash auth.userId) with
  | .error _ => return .error .database
  | .ok hash =>
    let valid ← ask (.verifyPassword auth.userId password (hash.getD ""))
    if !valid then return .error invalidPassword else return .ok ()

def changeOwnPassword (auth : AuthUser) (currentPassword newPassword : String) :
    Proc (Except ApiError Unit) := do
  match ← verifyOwnPassword auth currentPassword with
  | .error e => return .error e
  | .ok () =>
    match validatePasswordStrength newPassword with
    | .error msg => return .error (weakPassword msg)
    | .ok () =>
      match ← ask (.hashPassword newPassword) with
      | .error reason => return .error (internalError reason)
      | .ok newHash =>
        match ← perform (.updateAccount (.changePassword newHash auth.userId)) with
        | .error _ => return .error (internalError "Failed to update password")
        | .ok _ => return .ok ()

def adminResetPassword (auth : AuthUser) (id : Uuid) (newPassword : String) (forcePasswordReset : Bool) :
    Proc (Except ApiError Unit) := do
  if !auth.role.isAdmin then return .error adminRequired
  else
    match ← perform (.userExists id) with
    | .error reason => return .error (internalError reason)
    | .ok false => return .error userNotFound
    | .ok true =>
      match validatePasswordStrength newPassword with
      | .error msg => return .error (weakPassword msg)
      | .ok () =>
        match ← ask (.hashPassword newPassword) with
        | .error reason => return .error (internalError reason)
        | .ok newHash =>
          match ← perform (.updateAccount (.resetPassword newHash forcePasswordReset id)) with
          | .error _ => return .error (internalError "Failed to reset password")
          | .ok _ => return .ok ()

def adminDisableMfa (auth : AuthUser) (id : Uuid) : Proc (Except ApiError Unit) := do
  if !auth.role.isAdmin then return .error adminRequired
  else
    match ← perform (.updateAccount (.disableMfa id)) with
    | .error _ => return .error (internalError "Failed to disable MFA")
    | .ok rows => if rows = 0 then return .error userNotFound else return .ok ()

def mfaVerify (auth : AuthUser) (secretBase32 code : String) : Proc (Except ApiError Unit) := do
  match ← perform (.checkCode auth.username secretBase32 code) with
  | .error reason => return .error (internalError reason)
  | .ok false => return .error ⟨400, "invalid_code", "Invalid TOTP code"⟩
  | .ok true =>
    match ← ask .loadKey with
    | .error _ => return .error (internalError "Encryption key error")
    | .ok () =>
      match ← perform (.encrypt secretBase32) with
      | .error _ => return .error (internalError "Encryption error")
      | .ok (ciphertext, nonce) =>
        match ← perform (.updateAccount (.enableMfa ciphertext nonce auth.userId)) with
        | .error _ => return .error (internalError "Failed to enable MFA")
        | .ok _ => return .ok ()

def disableMfa (auth : AuthUser) (password : String) : Proc (Except ApiError Unit) := do
  match ← verifyOwnPassword auth password with
  | .error e => return .error e
  | .ok () =>
    match ← perform (.updateAccount (.disableMfa auth.userId)) with
    | .error _ => return .error (internalError "Failed to disable MFA")
    | .ok _ => return .ok ()

/-- The password of the account that the schema is seeded with, when the service starts. -/
def bootstrapAdminPassword : Proc Unit := do
  match ← perform .selectAdminHash with
  | none => return
  | some currentHash =>
    if !isPlaceholder currentHash then return
    else
      let password ← perform .generatePassword
      match ← ask (.hashPassword password) with
      | .error _ => return
      | .ok newHash =>
        match ← perform (.updateAccount (.bootstrapPassword newHash)) with
        | .error _ => return
        | .ok rows => if rows = 1 then perform (.printPassword password) else return

end PatchManager.Accounts
