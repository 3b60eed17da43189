import PatchManager.Conc.Schedule
import PatchManager.Sql.Table
import PatchManager.Web.Headers

/-! # Accounts and refresh tokens

The rows of `users` and `refresh_tokens` that the sign-in code works on, its statements, and
everything else its requests ask of their surroundings.

A statement that fails has no effect.  What hashing, signing and the TOTP check answer is left
to the surroundings; SHA-256 is a function `sha256`, and the hashes of the tokens given out are
all different.
-/

namespace PatchManager.Auth

open PatchManager.Conc

inductive AuthProvider where
  | localUser
  | azureSso
  | keycloak
  | oidc
deriving DecidableEq

/-- A row of `users`. -/
structure User where
  id : Uuid
  username : String
  displayName : String
  role : UserRole
  authProvider : AuthProvider
  passwordHash : Option String
  totpSecretEncrypted : Option (List UInt8)
  totpSecretNonce : Option (List UInt8)
  mfaEnabled : Bool
  isActive : Bool
  forcePasswordReset : Bool
  failedLoginAttempts : Nat
  lockedUntil : Option Time
  lastLoginAt : Option Time

/-- What a request says about its client. -/
structure Client where
  userAgent : Option String
  ipAddress : Option String

/-- A row of `refresh_tokens`. -/
structure RefreshToken where
  id : Uuid
  userId : Uuid
  tokenHash : String
  expiresAt : Time
  revoked : Bool
  revokedAt : Option Time
  client : Client

/-- The columns `rotate` selects. -/
structure StoredRefreshToken where
  id : Uuid
  userId : Uuid
  expiresAt : Time
  revoked : Bool

def RefreshToken.stored (t : RefreshToken) : StoredRefreshToken :=
  { id := t.id, userId := t.userId, expiresAt := t.expiresAt, revoked := t.revoked }

/-! ## Statements -/

/-- The `UPDATE`s of `users`. -/
inductive UserUpdate where
  | clearLock (id : Uuid)
  | lockAccount (attempts : Nat) (lockUntil : Time) (id : Uuid)
  | countFailure (attempts : Nat) (id : Uuid)
  | recordLogin (now : Time) (id : Uuid)
  | setPassword (newHash : String) (id : Uuid)

namespace UserUpdate

def id : UserUpdate → Uuid
  | clearLock id | lockAccount _ _ id | countFailure _ id | recordLogin _ id | setPassword _ id => id

def assign : UserUpdate → User → User
  | clearLock _, u => { u with failedLoginAttempts := 0, lockedUntil := none }
  | lockAccount attempts lockUntil _, u =>
    { u with failedLoginAttempts := attempts, lockedUntil := some lockUntil }
  | countFailure attempts _, u => { u with failedLoginAttempts := attempts }
  | recordLogin now _, u =>
    { u with lastLoginAt := some now, failedLoginAttempts := 0, lockedUntil := none }
  | setPassword newHash _, u =>
    { u with passwordHash := some newHash, forcePasswordReset := false, failedLoginAttempts := 0
             lockedUntil := none }

def update (s : UserUpdate) : Sql.Update User := ⟨fun u => u.id == s.id, s.assign⟩

end UserUpdate

/-- The `UPDATE`s of `refresh_tokens`. -/
inductive TokenUpdate where
  | revokeById (id : Uuid)
  | revokeByHash (hash : String)
  | revokeAllForUser (userId : Uuid)

namespace TokenUpdate

def cond : TokenUpdate → RefreshToken → Bool
  | revokeById id, t => t.id == id
  | revokeByHash hash, t => t.tokenHash == hash
  | revokeAllForUser userId, t => t.userId == userId && !t.revoked

def update (s : TokenUpdate) (now : Time) : Sql.Update RefreshToken :=
  ⟨s.cond, fun t => { t with revoked := true, revokedAt := some now }⟩

end TokenUpdate

/-! ## Operations -/

inductive Op where
  | utcNow
  | selectLocalUser (username : String)
  | selectUser (id : Uuid)
  /-- identifier, hash and `force_password_reset` of a local account -/
  | selectPassword (username : String)
  | updateUsers (s : UserUpdate)
  | selectToken (hash : String)
  | updateTokens (s : TokenUpdate)
  | insertToken (userId : Uuid) (hash : String) (expiresAt : Time) (client : Client)
  | generateToken
  | hashPassword (password : String)
  /-- The account whose hash it is stands along. -/
  | verifyPassword (userId : Uuid) (password hash : String)
  | loadKey
  | decrypt (ciphertext nonce : List UInt8)
  | verifyCode (username secret code : String)
  | issueAccessToken (userId : Uuid) (username role : String) (ttlSecs : Int) (signingKeyPem : String)

@[reducible] def Op.Resp : Op → Type
  | .utcNow => Time
  | .selectLocalUser _ => Except String (Option User)
  | .selectUser _ => Except String User
  | .selectPassword _ => Except String (Option (Uuid × Option String × Bool))
  | .updateUsers _ | .updateTokens _ => Except String Nat
  | .selectToken _ => Except String (Option StoredRefreshToken)
  | .insertToken _ _ _ _ | .loadKey => Except String Unit
  | .generateToken => String
  | .hashPassword _ | .decrypt _ _ | .issueAccessToken _ _ _ _ _ => Except String String
  | .verifyPassword _ _ _ | .verifyCode _ _ _ => Bool

/-! ## The world -/

structure World where
  users : List User := []
  tokens : List RefreshToken := []
  /-- the identifiers of rows and the token hashes given out so far -/
  ids : List Uuid := []
  hashes : List String := []
  now : Time

def World.user (w : World) (id : Uuid) : Option User := Sql.lookup User.id id w.users

def World.localUser (w : World) (username : String) : Option User :=
  w.users.find? fun u => u.username == username && u.authProvider == .localUser

def World.token (w : World) (hash : String) : Option RefreshToken :=
  Sql.lookup RefreshToken.tokenHash hash w.tokens

inductive Answer where
  | ok
  | failed (reason : String)
  | text (s : String)
  | truth (b : Bool)
  | id (id : Uuid)

/-- The row `insertToken` adds. -/
def newToken (id userId : Uuid) (hash : String) (expiresAt : Time) (client : Client) : RefreshToken :=
  { id, userId, tokenHash := hash, expiresAt, revoked := false, revokedAt := none, client }

def execute (sha256 : String → String) (w : World) : (o : Op) → Answer → Option (o.Resp × World)
  | .utcNow, _ => some (w.now, w)
  | .selectLocalUser _, .failed reason => some (.error reason, w)
  | .selectLocalUser username, _ => some (.ok (w.localUser username), w)
  | .selectUser _, .failed reason => some (.error reason, w)
  | .selectUser id, _ => (w.user id).map fun u => (.ok u, w)
  | .selectPassword _, .failed reason => some (.error reason, w)
  | .selectPassword username, _ =>
    some (.ok ((w.localUser username).map fun u => (u.id, u.passwordHash, u.forcePasswordReset)), w)
  | .updateUsers _, .failed reason => some (.error reason, w)
  | .updateUsers s, _ =>
    some (.ok (s.update.affected w.users), { w with users := s.update.apply w.users })
  | .selectToken _, .failed reason => some (.error reason, w)
  | .selectToken hash, _ => some (.ok ((w.token hash).map RefreshToken.stored), w)
  | .updateTokens _, .failed reason => some (.error reason, w)
  | .updateTokens s, _ =>
    some (.ok ((s.update w.now).affected w.tokens),
      { w with tokens := (s.update w.now).apply w.tokens })
  | .insertToken _ _ _ _, .failed reason => some (.error reason, w)
  -- the foreign key, the primary key and the unique hash
  | .insertToken userId hash expiresAt client, .id id =>
    if (w.user userId).isSome ∧ id ∉ w.ids ∧ w.token hash = none then
      some (.ok (), { w with tokens := w.tokens ++ [newToken id userId hash expiresAt client]
                             ids := id :: w.ids })
    else none
  | .generateToken, .text raw =>
    if sha256 raw ∈ w.hashes then none
    else some (raw, { w with hashes := sha256 raw :: w.hashes })
  | .hashPassword _, .failed reason => some (.error reason, w)
  | .hashPassword _, .text hash => some (.ok hash, w)
  | .verifyPassword _ _ _, .truth b => some (b, w)
  | .loadKey, .failed reason => some (.error reason, w)
  | .loadKey, _ => some (.ok (), w)
  | .decrypt _ _, .failed reason => some (.error reason, w)
  | .decrypt _ _, .text secret => some (.ok secret, w)
  | .verifyCode _ _ _, .truth b => some (b, w)
  | .issueAccessToken _ _ _ _ _, .failed reason => some (.error reason, w)
  | .issueAccessToken _ _ _ _ _, .text token => some (.ok token, w)
  | _, _ => none

/-- What happens besides these requests.  The other routes that change an account leave its
    name, its failure counter and its lock alone. -/
inductive Change where
  | tick (micros : Nat)
  | createUser (user : User)
  | editUser (user : User)
  | deleteUser (id : Uuid)

/-- The columns of `new` in the row `u`, where other routes write them. -/
def User.edited (u new : User) : User :=
  if u.id = new.id then
    { new with username := u.username, failedLoginAttempts := u.failedLoginAttempts
               lockedUntil := u.lockedUntil }
  else u

def change (w : World) : Change → World
  | .tick micros => { w with now := w.now + micros }
  | .createUser user =>
    if user.id ∉ w.ids ∧ (∀ u ∈ w.users, u.username ≠ user.username) then
      { w with users := w.users ++ [{ user with failedLoginAttempts := 0, lockedUntil := none }]
               ids := user.id :: w.ids }
    else w
  | .editUser user => { w with users := w.users.map (·.edited user) }
  | .deleteUser id =>
    { w with users := w.users.filter (·.id ≠ id), tokens := w.tokens.filter (·.userId ≠ id) }

end PatchManager.Auth
