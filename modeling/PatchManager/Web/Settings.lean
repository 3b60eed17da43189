import PatchManager.Audit.Action
import PatchManager.Conc.Serve
import PatchManager.Web.Rbac
import PatchManager.Worker.Email

/-! # Changing settings

`update_settings` and `update_ip_whitelist` of `settings.rs`.  Of what they change only the
allowlist is kept track of: the row `ip_whitelist` of `system_config`, and the list in memory
that requests are checked against.  A statement that fails has no effect.  The settings that are
returned are left out.
-/

namespace PatchManager.Settings

open PatchManager.Conc

variable {nets : IpNetCrate}

structure OidcConfigUpdate where
  enabled : Option Bool
  providerType : Option String
  displayName : Option String
  discoveryUrl : Option String
  clientId : Option String
  clientSecret : Option String
  redirectUri : Option String
  scopes : Option String

structure SmtpConfigUpdate where
  enabled : Option Bool
  host : Option String
  port : Option UInt16
  username : Option String
  password : Option String
  sender : Option String
  tlsMode : Option String

structure PollingConfigUpdate where
  healthPollIntervalSecs : Option UInt64
  patchPollIntervalSecs : Option UInt64

structure NotificationConfigUpdate where
  emailEnabled : Option Bool
  emailFrom : Option String
  recipients : Option (List String)

structure UpdateSettingsRequest where
  oidc : Option OidcConfigUpdate
  smtp : Option SmtpConfigUpdate
  polling : Option PollingConfigUpdate
  ipWhitelist : Option (List (List Char))
  webTlsStrategy : Option String
  notification : Option NotificationConfigUpdate

/-! ## Operations -/

/-- A value of `system_config`. -/
inductive ConfigValue where
  | text (s : String)
  | strings (l : List String)
  /-- the entries of the allowlist -/
  | entries (l : List (List Char))

structure Encrypted where
  ciphertext : List UInt8
  nonce : List UInt8

inductive Op where
  | loadKey
  | encrypt (plaintext : String)
  /-- the `UPDATE` of `oidc_config`, with the secret where it is replaced -/
  | updateOidcConfig (oidc : OidcConfigUpdate) (clientSecret : Option Encrypted)
  | updateConfigKey (key : String) (value : ConfigValue)
  | deleteConfigKey (key : String)
  /-- the value in hexadecimal -/
  | insertConfigKey (key : String) (value : List UInt8)
  | logEvent (action : AuditAction) (target : String)
  /-- of the list in memory -/
  | updateIpWhitelist (entries : List (List Char))
  | loadSystemConfig
  | fetchOidcConfig

@[reducible] def Op.Resp : Op → Type
  | .encrypt _ => Except String Encrypted
  | .loadKey | .updateOidcConfig _ _ | .updateConfigKey _ _ | .deleteConfigKey _ | .insertConfigKey _ _
  | .loadSystemConfig | .fetchOidcConfig => Except String Unit
  | .logEvent _ _ | .updateIpWhitelist _ => Unit

structure World (nets : IpNetCrate) where
  authConfig : AuthConfig nets
  /-- the row `ip_whitelist` of `system_config` -/
  ipWhitelist : List (List Char)

inductive Answer where
  | ok
  | failed (reason : String)
  | encrypted (secret : Encrypted)

def execute (w : World nets) : (o : Op) → Answer → Option (o.Resp × World nets)
  | .encrypt _, .encrypted secret => some (.ok secret, w)
  | .encrypt _, .failed reason => some (.error reason, w)
  | .updateConfigKey "ip_whitelist" (.entries l), .ok => some (.ok (), { w with ipWhitelist := l })
  | .updateConfigKey _ _, .ok => some (.ok (), w)
  | .updateConfigKey _ _, .failed reason => some (.error reason, w)
  | .updateIpWhitelist l, .ok =>
    some ((), { w with authConfig := w.authConfig.updateIpWhitelist l })
  | .logEvent _ _, .ok => some ((), w)
  | .loadKey, .ok | .updateOidcConfig _ _, .ok | .deleteConfigKey _, .ok | .insertConfigKey _ _, .ok
  | .loadSystemConfig, .ok | .fetchOidcConfig, .ok => some (.ok (), w)
  | .loadKey, .failed reason | .updateOidcConfig _ _, .failed reason
  | .deleteConfigKey _, .failed reason | .insertConfigKey _ _, .failed reason
  | .loadSystemConfig, .failed reason | .fetchOidcConfig, .failed reason => some (.error reason, w)
  | _, _ => none

/-! ## Programs -/

inductive Fn where
  | updateSettings (auth : AuthUser) (req : UpdateSettingsRequest)
  | updateIpWhitelist (auth : AuthUser) (entries : List (List Char))

abbrev Prog := Conc.Prog Op Op.Resp Fn

def perform (o : Op) : Prog o.Resp := Conc.Prog.perform o

def internalError (message : String) : ApiError := ⟨500, "internal_error", message⟩

def adminRequired (auth : AuthUser) : Except ApiError Unit :=
  if auth.role ≠ .admin then
    .error ⟨403, "forbidden_role", "Admin role required to modify this resource"⟩
  else .ok ()

/-- `map_err` to an internal error. -/
def orInternal {α : Type} (message : String → String) (p : Prog (Except String α)) :
    Prog (Except ApiError α) :=
  p.bind fun r => .ret (r.mapError fun e => internalError (message e))

def orDatabase {α : Type} : Prog (Except String α) → Prog (Except ApiError α) :=
  orInternal fun _ => "Database error"

def updateConfigKey (key : String) (value : ConfigValue) : Prog (Except ApiError Unit) :=
  orDatabase (perform (.updateConfigKey key value))

def logEvent (action : AuditAction) (target : String) : Prog (Except ApiError Unit) :=
  (perform (.logEvent action target)).bind fun _ => .ret (.ok ())

/-- What is done about a part of the request that may be missing. -/
def ifSome {α : Type} (v : Option α) (p : α → Prog (Except ApiError Unit)) : Prog (Except ApiError Unit) :=
  match v with
  | some a => p a
  | none => .ret (.ok ())

def masked : String := "********"

def encryptSecret (plaintext : String) : Prog (Except ApiError Encrypted) :=
  (orInternal (fun _ => "Encryption key error") (perform .loadKey)).attempt fun _ =>
    orInternal (fun _ => "Encryption error") (perform (.encrypt plaintext))

def updateOidc (oidc : OidcConfigUpdate) : Prog (Except ApiError Unit) :=
  let plaintext := oidc.clientSecret.filter fun s => s ≠ masked && !s.isEmpty
  let secret : Prog (Except ApiError (Option Encrypted)) :=
    match plaintext with
    | some s => (encryptSecret s).attempt fun secret => .ret (.ok (some secret))
    | none => .ret (.ok none)
  secret.attempt fun secret => .steps [
    orInternal (fun e => "Failed to update OIDC config: " ++ e) (perform (.updateOidcConfig oidc secret)),
    logEvent .oidcConfigUpdated "oidc"]

/-- The old row with the password in plain text goes, and two new ones come. -/
def updateSmtpPassword (password : String) : Prog (Except ApiError Unit) :=
  if password = masked then .ret (.ok ())
  else (encryptSecret password).attempt fun secret => .steps [
    orDatabase (perform (.deleteConfigKey "smtp_password")),
    orDatabase (perform (.insertConfigKey "smtp_password_encrypted" secret.ciphertext)),
    orDatabase (perform (.insertConfigKey "smtp_password_nonce" secret.nonce))]

def updateSmtp (smtp : SmtpConfigUpdate) : Prog (Except ApiError Unit) :=
  .steps [
    ifSome smtp.enabled fun v => updateConfigKey "smtp_enabled" (.text (toString v)),
    ifSome smtp.host fun v => updateConfigKey "smtp_host" (.text v),
    ifSome smtp.port fun v => updateConfigKey "smtp_port" (.text (toString v)),
    ifSome smtp.username fun v => updateConfigKey "smtp_username" (.text v),
    ifSome smtp.password updateSmtpPassword,
    ifSome smtp.sender fun v => updateConfigKey "smtp_from" (.text v),
    ifSome smtp.tlsMode fun v => updateConfigKey "smtp_tls_mode" (.text v),
    logEvent .smtpConfigUpdated "smtp"]

def updatePolling (polling : PollingConfigUpdate) : Prog (Except ApiError Unit) :=
  .steps [
    ifSome polling.healthPollIntervalSecs fun v =>
      updateConfigKey "health_poll_interval_secs" (.text (toString v)),
    ifSome polling.patchPollIntervalSecs fun v =>
      updateConfigKey "patch_poll_interval_secs" (.text (toString v)),
    logEvent .configChanged "polling"]

/-- The list is stored, and then takes effect. -/
def storeIpWhitelist (entries : List (List Char)) : Prog (Except ApiError Unit) :=
  .steps [
    updateConfigKey "ip_whitelist" (.entries entries),
    (perform (.updateIpWhitelist entries)).bind fun _ => .ret (.ok ()),
    logEvent .ipWhitelistUpdated "ip_whitelist"]

def updateWebTlsStrategy (v : String) : Prog (Except ApiError Unit) :=
  .steps [updateConfigKey "web_tls_strategy" (.text v), logEvent .configChanged "web_tls_strategy"]

def updateNotification (notif : NotificationConfigUpdate) : Prog (Except ApiError Unit) :=
  .steps [
    ifSome notif.emailEnabled fun v => updateConfigKey "notification_email_enabled" (.text (toString v)),
    ifSome notif.emailFrom fun v => updateConfigKey "notification_email_from" (.text v),
    ifSome notif.recipients fun v => updateConfigKey "notification_email_recipients" (.strings v),
    logEvent .configChanged "notification"]

def updateSettings (auth : AuthUser) (req : UpdateSettingsRequest) : Prog (Except ApiError Unit) :=
  match adminRequired auth with
  | .error e => .ret (.error e)
  | .ok () => .steps [
    ifSome req.oidc updateOidc,
    ifSome req.smtp updateSmtp,
    ifSome req.polling updatePolling,
    ifSome req.ipWhitelist storeIpWhitelist,
    ifSome req.webTlsStrategy updateWebTlsStrategy,
    ifSome req.notification updateNotification,
    orDatabase (perform .loadSystemConfig),
    orDatabase (perform .fetchOidcConfig)]

/-- An entry that is neither a network nor an address. -/
def isInvalid (nets : IpNetCrate) (entry : List Char) : Bool :=
  (nets.fromStr entry).isNone && (IpAddr.parse entry).isNone

def updateIpWhitelist (nets : IpNetCrate) (auth : AuthUser) (entries : List (List Char)) :
    Prog (Except ApiError Unit) :=
  match adminRequired auth with
  | .error e => .ret (.error e)
  | .ok () =>
    match entries.find? (isInvalid nets) with
    | some entry => .ret (.error ⟨400, "bad_request", "Invalid CIDR or IP: " ++ String.ofList entry⟩)
    | none => storeIpWhitelist entries

/-- The answer to a request. -/
def handle (nets : IpNetCrate) : Fn → Prog (Except ApiError Unit)
  | .updateSettings auth req => updateSettings auth req
  | .updateIpWhitelist auth entries => updateIpWhitelist nets auth entries

/-- `main` reads the list of the configuration file, whatever is stored. -/
def start (nets : IpNetCrate) (verifyKeyPem : String) (ipWhitelist trustedProxies : List (List Char))
    (stored : List (List Char)) : World nets where
  authConfig := AuthConfig.new verifyKeyPem ipWhitelist trustedProxies
  ipWhitelist := stored

def settings (nets : IpNetCrate) : Service (World nets) Op Op.Resp Fn where
  body f := (handle nets f).bind fun _ => .ret ()
  Answer := Answer
  Change := Unit
  execute := execute
  change w _ := w
  isEntry _ := true
  restart w := w
  perishes _ := true

end PatchManager.Settings

/-! ## What settings are stored

The programs of `settings.rs` again, over all the rows they write: `system_config`, the row of
`oidc_config`, and the allowlist in memory.
-/

namespace PatchManager.Settings

open PatchManager.Conc

/-- The row of `oidc_config`. -/
structure OidcConfig where
  enabled : Bool
  providerType : String
  displayName : String
  discoveryUrl : String
  clientId : String
  clientSecretEncrypted : Option (List UInt8)
  clientSecretNonce : Option (List UInt8)
  redirectUri : String
  scopes : String
deriving DecidableEq

/-- `COALESCE` of what is given and what is there. -/
def OidcConfig.update (row : OidcConfig) (oidc : OidcConfigUpdate) (clientSecret : Option Encrypted) :
    OidcConfig where
  enabled := oidc.enabled.getD row.enabled
  providerType := oidc.providerType.getD row.providerType
  displayName := oidc.displayName.getD row.displayName
  discoveryUrl := oidc.discoveryUrl.getD row.discoveryUrl
  clientId := oidc.clientId.getD row.clientId
  clientSecretEncrypted := (clientSecret.map (·.ciphertext)).or row.clientSecretEncrypted
  clientSecretNonce := (clientSecret.map (·.nonce)).or row.clientSecretNonce
  redirectUri := oidc.redirectUri.getD row.redirectUri
  scopes := oidc.scopes.getD row.scopes

structure Store where
  config : Config.Rows
  oidcConfig : OidcConfig
  /-- in memory -/
  ipWhitelist : List (List Char)
deriving DecidableEq

/-- The text of a value; lists are written with `serde_json`. -/
def ConfigValue.render (toJson : List String → String) : ConfigValue → String
  | .text s => s
  | .strings l => toJson l
  | .entries l => toJson (l.map String.ofList)

variable (crypto : Crypto) (toJson : List String → String)

def Store.execute (w : Store) : (o : Op) → Answer → Option (o.Resp × Store)
  | .encrypt plaintext, .encrypted secret =>
    if crypto.isEncryption plaintext secret.ciphertext secret.nonce then some (.ok secret, w) else none
  | .encrypt _, .failed reason => some (.error reason, w)
  | .updateOidcConfig oidc clientSecret, .ok =>
    some (.ok (), { w with oidcConfig := w.oidcConfig.update oidc clientSecret })
  | .updateConfigKey key value, .ok =>
    some (.ok (), { w with config := (Config.update key (value.render toJson)).apply w.config })
  | .deleteConfigKey key, .ok => some (.ok (), { w with config := Config.delete key w.config })
  | .insertConfigKey key value, .ok =>
    let (r, config) := Config.insert key (Hex.encode value) w.config
    some (r, { w with config })
  | .updateIpWhitelist l, .ok => some ((), { w with ipWhitelist := l })
  | .logEvent _ _, .ok => some ((), w)
  | .loadKey, .ok | .loadSystemConfig, .ok | .fetchOidcConfig, .ok => some (.ok (), w)
  | .loadKey, .failed reason | .updateOidcConfig _ _, .failed reason | .updateConfigKey _ _, .failed reason
  | .deleteConfigKey _, .failed reason | .insertConfigKey _ _, .failed reason
  | .loadSystemConfig, .failed reason | .fetchOidcConfig, .failed reason => some (.error reason, w)
  | _, _ => none

def store (nets : IpNetCrate) : Service Store Op Op.Resp Fn where
  body f := (handle nets f).bind fun _ => .ret ()
  Answer := Answer
  Change := Unit
  execute := Store.execute crypto toJson
  change w _ := w
  isEntry _ := true
  restart := id
  perishes _ := true

/-- The settings for mail, where the key is there and the database answers. -/
def Store.smtpSettings (w : Store) : Email.SmtpSettings :=
  Email.loadSmtpSettings (.ok crypto) (.ok (Email.smtpRows w.config))

end PatchManager.Settings
