import PatchManager.Conc.Serve
import PatchManager.Core.Crypto
import PatchManager.Db.Config
import PatchManager.Db.Types
import PatchManager.Text.Hex

/-! # The migration of secrets

`main.rs` of `migrate-secrets`: what is in plain text in the old columns and rows is encrypted and
written to the new ones.  The counts it prints are left out.
-/

namespace PatchManager.Migrate

open PatchManager.Conc

/-- The secret columns of `oidc_config`. -/
structure OidcRow where
  clientSecret : Option String
  clientSecretEncrypted : Option (List UInt8)
  clientSecretNonce : Option (List UInt8)
deriving DecidableEq

/-- The secret columns of `users`. -/
structure UserRow where
  id : Uuid
  totpSecret : Option String
  totpSecretEncrypted : Option (List UInt8)
  totpSecretNonce : Option (List UInt8)
deriving DecidableEq

structure Database where
  /-- the row with `id = 1` -/
  oidcConfig : Option OidcRow
  systemConfig : Config.Rows
  users : List UserRow
  /-- the old columns, until they are dropped -/
  hasClientSecret : Bool
  hasTotpSecret : Bool
deriving DecidableEq

inductive Op where
  | loadOrCreateKey
  | databaseUrl
  | connect
  | encrypt (plaintext : String)
  | selectClientSecret
  | updateClientSecret (ciphertext nonce : List UInt8)
  | selectSmtpPassword
  | deleteSmtpPassword
  /-- the value in hexadecimal -/
  | insertConfigKey (key : String) (value : List UInt8)
  | selectTotpSecrets
  | updateTotpSecret (ciphertext nonce : List UInt8) (userId : Uuid)

@[reducible] def Op.Resp : Op → Type
  | .encrypt _ => Except String (List UInt8 × List UInt8)
  | .selectClientSecret => Except String (Option (Option String))
  | .selectSmtpPassword => Except String (Option String)
  | .selectTotpSecrets => Except String (List (Uuid × String))
  | .loadOrCreateKey | .databaseUrl | .connect | .updateClientSecret _ _ | .deleteSmtpPassword
  | .insertConfigKey _ _ | .updateTotpSecret _ _ _ => Except String Unit

abbrev Proc := Prog Op Op.Resp Unit

def perform (o : Op) : Proc o.Resp := Prog.perform o

/-- `p`, where an error is reported as the context. -/
def inContext {α : Type} (context : String) (p : Proc (Except String α)) : Proc (Except String α) :=
  p.bind fun r => .ret (r.mapError fun _ => context)

variable (crypto : Crypto)

/-- Encrypts and decrypts again; `message` takes what has come out. -/
def encryptVerified (message : String → String) (plaintext : String) :
    Proc (Except String (List UInt8 × List UInt8)) :=
  (perform (.encrypt plaintext)).attempt fun (ciphertext, nonce) =>
    match crypto.decrypt ciphertext nonce with
    | none => .ret (.error "Decryption failed")
    | some recovered =>
      if recovered = plaintext then .ret (.ok (ciphertext, nonce)) else .ret (.error (message recovered))

/-- An error stands for a column that is not there any more. -/
def readOidcClientSecret : Proc (Except String (Option String)) :=
  (perform .selectClientSecret).bind fun
    | .ok row => .ret (.ok row.join)
    | .error _ => .ret (.ok none)

def writeOidcClientSecret (plaintext : String) : Proc (Except String Unit) :=
  (encryptVerified crypto ("OIDC round-trip failed: expected " ++ plaintext ++ ", got " ++ ·) plaintext).attempt
    fun (ciphertext, nonce) =>
      inContext "Failed to update oidc_config" (perform (.updateClientSecret ciphertext nonce))

/-- The old row goes, and two new ones come. -/
def writeSmtpPassword (plaintext : String) : Proc (Except String Unit) :=
  (encryptVerified crypto ("SMTP round-trip failed: expected " ++ plaintext ++ ", got " ++ ·) plaintext).attempt
    fun (ciphertext, nonce) => .steps [
      perform .deleteSmtpPassword,
      perform (.insertConfigKey "smtp_password_encrypted" ciphertext),
      perform (.insertConfigKey "smtp_password_nonce" nonce)]

/-- What is done about a secret that may be missing or empty. -/
def unlessEmpty (write : String → Proc (Except String Unit)) : Option String → Proc (Except String Unit)
  | some plaintext => if plaintext.isEmpty then .ret (.ok ()) else write plaintext
  | none => .ret (.ok ())

def migrateTotpSecret (user : Uuid × String) : Proc (Except String Unit) :=
  (encryptVerified crypto (fun _ => "TOTP round-trip failed for user " ++ Uuid.text user.1) user.2).attempt
    fun (ciphertext, nonce) =>
      inContext "Failed to update user totp_secret" (perform (.updateTotpSecret ciphertext nonce user.1))

def migrateTotpSecrets : Proc (Except String Unit) :=
  (inContext "Failed to read users with totp_secret" (perform .selectTotpSecrets)).attempt fun users =>
    .steps (users.map (migrateTotpSecret crypto))

def main : Proc (Except String Unit) :=
  .steps [
    inContext "Failed to load secret-encryption key" (perform .loadOrCreateKey),
    inContext "DATABASE_URL environment variable not set" (perform .databaseUrl),
    inContext "Failed to connect to database" (perform .connect),
    readOidcClientSecret.attempt (unlessEmpty (writeOidcClientSecret crypto)),
    (perform .selectSmtpPassword).attempt (unlessEmpty (writeSmtpPassword crypto)),
    migrateTotpSecrets crypto]

/-! ## The database -/

inductive Answer where
  | ok
  | failed (reason : String)
  | encrypted (ciphertext nonce : List UInt8)

/-- `mayFail`: whether a statement can fail for no reason of its own. -/
def execute (mayFail : Bool) (db : Database) : (o : Op) → Answer → Option (o.Resp × Database)
  | .encrypt plaintext, .encrypted ciphertext nonce =>
    if crypto.isEncryption plaintext ciphertext nonce then some (.ok (ciphertext, nonce), db) else none
  | .loadOrCreateKey, .ok | .databaseUrl, .ok | .connect, .ok => some (.ok (), db)
  | .selectClientSecret, .ok =>
    if db.hasClientSecret then some (.ok (db.oidcConfig.map (·.clientSecret)), db)
    else some (.error "column does not exist", db)
  | .updateClientSecret ciphertext nonce, .ok => some (.ok (), { db with
      oidcConfig := db.oidcConfig.map fun row =>
        { row with clientSecretEncrypted := some ciphertext, clientSecretNonce := some nonce } })
  | .selectSmtpPassword, .ok => some (.ok (Config.value "smtp_password" db.systemConfig), db)
  | .deleteSmtpPassword, .ok =>
    some (.ok (), { db with systemConfig := Config.delete "smtp_password" db.systemConfig })
  | .insertConfigKey key value, .ok =>
    let (r, systemConfig) := Config.insert key (Hex.encode value) db.systemConfig
    some (r, { db with systemConfig })
  | .selectTotpSecrets, .ok =>
    if db.hasTotpSecret then some (.ok (db.users.filterMap fun u => u.totpSecret.map (u.id, ·)), db)
    else some (.error "column does not exist", db)
  | .updateTotpSecret ciphertext nonce userId, .ok => some (.ok (), { db with
      users := (Sql.Update.mk (·.id == userId) fun u : UserRow =>
        { u with totpSecretEncrypted := some ciphertext, totpSecretNonce := some nonce }).apply db.users })
  | .encrypt _, .failed reason | .loadOrCreateKey, .failed reason | .databaseUrl, .failed reason
  | .connect, .failed reason | .selectClientSecret, .failed reason | .updateClientSecret _ _, .failed reason
  | .selectSmtpPassword, .failed reason | .deleteSmtpPassword, .failed reason
  | .insertConfigKey _ _, .failed reason | .selectTotpSecrets, .failed reason
  | .updateTotpSecret _ _ _, .failed reason => if mayFail then some (.error reason, db) else none
  | _, _ => none

def tool (mayFail : Bool) : Service Database Op Op.Resp Unit where
  body _ := (main crypto).bind fun _ => .ret ()
  Answer := Answer
  Change := Unit
  execute := execute crypto mayFail
  change db _ := db
  isEntry _ := true
  restart := id
  perishes _ := true

end PatchManager.Migrate
