import PatchManager.Auth.Store

/-! # Signing in and staying signed in

`refresh.rs` and `session.rs` of the authentication crate, with the handlers that use them:
`revoke_user_sessions`, `force_change_password_handler` and the end of `sso_callback` up to the
issue of its tokens.

`accounts` puts them together: any number of requests run in parallel over one database, one
statement at a time.
-/

namespace PatchManager.Auth

open PatchManager.Conc

/-- What the programs take from the configuration, and SHA-256 in hexadecimal. -/
structure AuthSettings where
  sha256 : String → String
  signingKeyPem : String
  accessTtlSecs : Int

structure LoginRequest where
  username : String
  password : String
  totpCode : Option String

structure ForceChangePasswordRequest where
  username : String
  currentPassword : String
  newPassword : String

inductive Fn where
  | login (req : LoginRequest) (client : Client)
  | ssoLogin (userId : Uuid) (username role : String)
  | refreshSession (rawRefreshToken : String) (client : Client)
  | logout (rawRefreshToken : String)
  | revokeUserSessions (auth : AuthUser) (id : Uuid)
  | forceChangePassword (req : ForceChangePasswordRequest)

abbrev Proc := Prog Op Op.Resp Fn

abbrev perform (o : Op) : Proc o.Resp := Prog.perform o

/-! ## Refresh tokens -/

inductive RefreshError where
  | invalid
  | expired
  | database (reason : String)
deriving DecidableEq

def microsPerHour : Int := 60 * microsPerMinute

def inactivityTimeoutHours : Int := 1

variable (cfg : AuthSettings)

def issue (userId : Uuid) (client : Client) : Proc (Except RefreshError String) := do
  let token ← perform .generateToken
  let now ← perform .utcNow
  match ← perform (.insertToken userId (cfg.sha256 token)
      (now + inactivityTimeoutHours * microsPerHour) client) with
  | .error reason => return .error (.database reason)
  | .ok () => return .ok token

def rotate (rawToken : String) (client : Client) : Proc (Except RefreshError (String × Uuid)) := do
  let now ← perform .utcNow
  match ← perform (.selectToken (cfg.sha256 rawToken)) with
  | .error reason => return .error (.database reason)
  | .ok none => return .error .invalid
  | .ok (some stored) =>
    if stored.revoked then return .error .invalid
    else if stored.expiresAt < now then return .error .expired
    else
      match ← perform (.updateTokens (.revokeById stored.id)) with
      | .error reason => return .error (.database reason)
      | .ok _ =>
        match ← issue cfg stored.userId client with
        | .error e => return .error e
        | .ok newToken => return .ok (newToken, stored.userId)

def revokeAllForUser (userId : Uuid) : Proc (Except RefreshError Nat) := do
  match ← perform (.updateTokens (.revokeAllForUser userId)) with
  | .error reason => return .error (.database reason)
  | .ok rowsAffected => return .ok rowsAffected

def revoke (rawToken : String) : Proc (Except RefreshError Unit) := do
  match ← perform (.updateTokens (.revokeByHash (cfg.sha256 rawToken))) with
  | .error reason => return .error (.database reason)
  | .ok _ => return .ok ()

/-! ## Sessions -/

inductive SessionError where
  | invalidCredentials
  | accountDisabled
  | passwordResetRequired
  | mfaRequired
  | invalidMfaCode
  | accountLocked
  | jwt (reason : String)
  | refresh (e : RefreshError)
  | database (reason : String)
  | internal (message : String)
deriving DecidableEq

structure SessionUser where
  id : String
  username : String
  displayName : String
  role : String
  mfaEnabled : Bool

structure LoginResponse where
  accessToken : String
  refreshToken : String
  tokenType : String := "Bearer"
  expiresIn : Int
  user : SessionUser

def User.summary (user : User) : SessionUser :=
  { id := user.id.text, username := user.username, displayName := user.displayName
    role := user.role.asStr, mfaEnabled := user.mfaEnabled }

def issueAccessToken (user : User) : Proc (Except String String) :=
  perform (.issueAccessToken user.id user.username user.role.asStr cfg.accessTtlSecs cfg.signingKeyPem)

/-- A lock that has not run out ends the login; one that has is taken off the row. -/
def checkLock (user : User) : Proc (Except SessionError Unit) := do
  match user.lockedUntil with
  | none => return .ok ()
  | some lockedUntil =>
    let now ← perform .utcNow
    if now < lockedUntil then return .error .accountLocked
    else
      match ← perform (.updateUsers (.clearLock user.id)) with
      | .error reason => return .error (.database reason)
      | .ok _ => return .ok ()

/-- What follows a password that does not match. -/
def recordFailure (user : User) : Proc (Except SessionError LoginResponse) := do
  let newAttempts := user.failedLoginAttempts + 1
  if 5 ≤ newAttempts then
    let now ← perform .utcNow
    match ← perform (.updateUsers (.lockAccount newAttempts (now + 30 * microsPerMinute) user.id)) with
    | .error reason => return .error (.database reason)
    | .ok _ => return .error .invalidCredentials
  else
    match ← perform (.updateUsers (.countFailure newAttempts user.id)) with
    | .error reason => return .error (.database reason)
    | .ok _ => return .error .invalidCredentials

/-- The TOTP secret of the row; the empty text where it has none. -/
def totpSecret (user : User) : Proc (Except SessionError String) := do
  match user.totpSecretEncrypted, user.totpSecretNonce with
  | some enc, some nonce =>
    match ← perform .loadKey with
    | .error _ => return .error (.internal "Encryption key error")
    | .ok () =>
      match ← perform (.decrypt enc nonce) with
      | .error _ => return .error (.internal "TOTP decryption error")
      | .ok secret => return .ok secret
  | _, _ => return .ok ""

def checkMfa (user : User) (totpCode : Option String) : Proc (Except SessionError Unit) := do
  if !user.mfaEnabled then return .ok ()
  else
    match totpCode with
    | none => return .error .mfaRequired
    | some code =>
      match ← totpSecret user with
      | .error e => return .error e
      | .ok secret =>
        let mfaOk ← perform (.verifyCode user.username secret code)
        if mfaOk then return .ok () else return .error .invalidMfaCode

/-- The tokens of a login that has passed all checks. -/
def startSession (user : User) (client : Client) : Proc (Except SessionError LoginResponse) := do
  match ← issueAccessToken cfg user with
  | .error reason => return .error (.jwt reason)
  | .ok accessToken =>
    match ← issue cfg user.id client with
    | .error e => return .error (.refresh e)
    | .ok rawRefresh =>
      let now ← perform .utcNow
      match ← perform (.updateUsers (.recordLogin now user.id)) with
      | .error reason => return .error (.database reason)
      | .ok _ =>
        return .ok
          { accessToken, refreshToken := rawRefresh, expiresIn := cfg.accessTtlSecs
            user := user.summary }

def login (req : LoginRequest) (client : Client) : Proc (Except SessionError LoginResponse) := do
  match ← perform (.selectLocalUser req.username) with
  | .error reason => return .error (.database reason)
  | .ok none =>
    let _ ← perform (.hashPassword "dummy-timing-fill")
    return .error .invalidCredentials
  | .ok (some user) =>
    match ← checkLock user with
    | .error e => return .error e
    | .ok () =>
      let valid ← perform (.verifyPassword user.id req.password (user.passwordHash.getD ""))
      if !valid then recordFailure user
      else if !user.isActive then return .error .accountDisabled
      else if user.forcePasswordReset then return .error .passwordResetRequired
      else
        match ← checkMfa user req.totpCode with
        | .error e => return .error e
        | .ok () => startSession cfg user client

def refreshSession (rawRefreshToken : String) (client : Client) :
    Proc (Except SessionError LoginResponse) := do
  match ← rotate cfg rawRefreshToken client with
  | .error e => return .error (.refresh e)
  | .ok (newRefresh, userId) =>
    match ← perform (.selectUser userId) with
    | .error reason => return .error (.database reason)
    | .ok user =>
      if !user.isActive then
        let _ ← revokeAllForUser userId
        return .error .accountDisabled
      else
        match ← issueAccessToken cfg user with
        | .error reason => return .error (.jwt reason)
        | .ok accessToken =>
          return .ok
            { accessToken, refreshToken := newRefresh, expiresIn := cfg.accessTtlSecs
              user := user.summary }

def logout (rawRefreshToken : String) : Proc (Except SessionError Unit) := do
  match ← revoke cfg rawRefreshToken with
  | .error e => return .error (.refresh e)
  | .ok () => return .ok ()

def forceLogout (userId : Uuid) : Proc (Except SessionError Nat) := do
  match ← revokeAllForUser userId with
  | .error e => return .error (.refresh e)
  | .ok count => return .ok count

/-! ## Handlers -/

def RefreshError.text : RefreshError → String
  | .invalid => "Refresh token not found or revoked"
  | .expired => "Refresh token expired"
  | .database reason => "Database error: " ++ reason

def SessionError.text : SessionError → String
  | .invalidCredentials => "Invalid credentials"
  | .accountDisabled => "Account is disabled"
  | .passwordResetRequired => "Password reset required"
  | .mfaRequired => "MFA required"
  | .invalidMfaCode => "Invalid MFA code"
  | .accountLocked => "Account locked due to too many failed attempts"
  | .jwt reason => "JWT error: " ++ reason
  | .refresh e => "Refresh token error: " ++ e.text
  | .database reason => "Database error: " ++ reason
  | .internal message => "Internal error: " ++ message

def revokeUserSessions (auth : AuthUser) (id : Uuid) : Proc (Except ApiError Nat) := do
  if auth.role ≠ .admin then return .error ⟨403, "forbidden", "Admin role required"⟩
  else
    match ← forceLogout id with
    | .error e => return .error ⟨500, "internal_error", e.text⟩
    | .ok count => return .ok count

def specialChars : List Char := "!@#$%^&*()_+-=[]\x7b\x7d|;:,.<>?".toList

def validatePasswordStrength (password : String) : Except String Unit :=
  let chars := password.toList
  if password.utf8ByteSize < 8 then .error "Password must be at least 8 characters"
  else if !chars.any Char.isUpper then .error "Password must contain at least one uppercase letter"
  else if !chars.any Char.isLower then .error "Password must contain at least one lowercase letter"
  else if !chars.any Char.isDigit then .error "Password must contain at least one digit"
  else if !chars.any (specialChars.contains ·) then
    .error "Password must contain at least one special character (!@#$%^&*()_+-=[]\x7b\x7d|;:,.<>?)"
  else .ok ()

def invalidCredentials : ApiError := ⟨401, "invalid_credentials", "Invalid username or password"⟩

def forceChangePassword (req : ForceChangePasswordRequest) : Proc (Except ApiError Unit) := do
  match validatePasswordStrength req.newPassword with
  | .error msg => return .error ⟨400, "weak_password", msg⟩
  | .ok () =>
    match ← perform (.selectPassword req.username) with
    | .error _ => return .error .database
    | .ok none => return .error invalidCredentials
    | .ok (some (userId, hashOpt, _)) =>
      let valid ← perform (.verifyPassword userId req.currentPassword (hashOpt.getD ""))
      if !valid then return .error invalidCredentials
      else
        match ← perform (.hashPassword req.newPassword) with
        | .error reason => return .error ⟨500, "internal_error", reason⟩
        | .ok newHash =>
          match ← perform (.updateUsers (.setPassword newHash userId)) with
          | .error _ => return .error ⟨500, "internal_error", "Failed to update password"⟩
          | .ok _ => return .ok ()

/-- The issue of tokens in `sso_callback`. -/
def ssoTokens (userId : Uuid) (username role : String) : Proc (Except String (String × String)) := do
  match ← perform (.issueAccessToken userId username role cfg.accessTtlSecs cfg.signingKeyPem) with
  | .error _ => return .error "Token issuance failed"
  | .ok accessToken =>
    match ← issue cfg userId ⟨none, none⟩ with
    | .error _ => return .error "Refresh token issuance failed"
    | .ok rawRefresh => return .ok (accessToken, rawRefresh)

/-! ## The service -/

def body : Fn → Proc Unit
  | .login req client => do
    let _ ← login cfg req client
  | .ssoLogin userId username role => do
    let _ ← ssoTokens cfg userId username role
  | .refreshSession raw client => do
    let _ ← refreshSession cfg raw client
  | .logout raw => do
    let _ ← logout cfg raw
  | .revokeUserSessions auth id => do
    let _ ← revokeUserSessions auth id
  | .forceChangePassword req => do
    let _ ← forceChangePassword req

def accounts : Service World Op Op.Resp Fn where
  body := body cfg
  Answer := Answer
  Change := Change
  execute := execute cfg.sha256
  change := change
  isEntry _ := true
  restart w := w
  perishes _ := true

end PatchManager.Auth
