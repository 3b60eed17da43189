import PatchManager.Verified.Allowlist
import PatchManager.Web.Settings

/-! # Settings that are saved

A request writes its settings row by row, without a transaction, and a password is inserted where
the other settings are updated.  So what has been written before a statement that fails stays, and
a second password always fails.

Main results:

* `settings_saved`: where no request fails after it has written, settings are saved or kept.
* `second_password`: the second request with a password fails, and has changed the host.
-/

namespace PatchManager.Settings

open PatchManager.Conc

variable {crypto : Crypto} {toJson : List String → String} {nets : IpNetCrate} {w w' : Store}
  {l : List (Exchange Op Op.Resp)} {rows : Config.Rows}

/-- The password a request carries: the mask stands for none. -/
def UpdateSettingsRequest.password (req : UpdateSettingsRequest) : Option String :=
  (req.smtp.bind (·.password)).filter (· ≠ masked)

/-- A request as it was served; it may be broken off. -/
structure Served where
  pre : Store
  auth : AuthUser
  req : UpdateSettingsRequest
  done : List (Exchange Op Op.Resp)
  result : Option (Except ApiError Unit)
  post : Store

/-- Requests one after the other. -/
inductive Sequence (crypto : Crypto) (toJson : List String → String) (nets : IpNetCrate) (w : Store) :
    List Served → Store → Prop
  | nil : Sequence crypto toJson nets w [] w
  | snoc {served : List Served} {x : Served} (before : Sequence crypto toJson nets w served x.pre)
      (serves : Serves (store crypto toJson nets) x.pre (updateSettings x.auth x.req) x.done x.result x.post) :
    Sequence crypto toJson nets w (served ++ [x]) x.post

/-- The password after one more request, where `before` was it. -/
def Served.password (before : String) (x : Served) : String :=
  match x.result with
  | some (.ok ()) => x.req.password.getD before
  | _ => before

/-- The password of the last successful request that carried one. -/
def lastPassword (initial : String) (served : List Served) : String := served.foldl Served.password initial

@[simp] theorem lastPassword_snoc (initial : String) (served : List Served) (x : Served) :
    lastPassword initial (served ++ [x]) = x.password (lastPassword initial served) := by
  simp [lastPassword]

/-- The settings are those of the request where it has them. -/
structure Yields (settings : Email.SmtpSettings) (smtp : SmtpConfigUpdate) : Prop where
  enabled : ∀ v, smtp.enabled = some v → settings.enabled = v
  host : ∀ v, smtp.host = some v → settings.host = v
  port : ∀ v, smtp.port = some v → settings.port = v
  username : ∀ v, smtp.username = some v → settings.username = v
  sender : ∀ v, smtp.sender = some v → settings.sender = v
  tlsMode : ∀ v, smtp.tlsMode = some v → settings.tlsMode = v

/-- A request that succeeds has its settings saved, with the last password; one that fails has
    changed nothing. -/
structure Saved (crypto : Crypto) (w : Store) (served : List Served) : Prop where
  saved : ∀ l₁ x l₂, served = l₁ ++ x :: l₂ → x.result = some (.ok ()) →
    (∀ smtp, x.req.smtp = some smtp → Yields (x.post.smtpSettings crypto) smtp) ∧
      (x.post.smtpSettings crypto).password = lastPassword (w.smtpSettings crypto).password (l₁ ++ [x])
  kept : ∀ x ∈ served, ∀ e, x.result = some (.error e) → x.post = x.pre

/-- The settings that the migrations insert are there. -/
def Seeded (w : Store) : Prop :=
  ∀ key ∈ ["smtp_enabled", "smtp_host", "smtp_port", "smtp_username", "smtp_from", "smtp_tls_mode"],
    (Config.value key w.config).isSome = true

def Op.writes : Op → Bool
  | .updateOidcConfig _ _ | .updateConfigKey _ _ | .deleteConfigKey _ | .insertConfigKey _ _
  | .updateIpWhitelist _ => true
  | _ => false

/-- Where the request is broken off or a statement fails in it, nothing has been written. -/
def Served.Clean (x : Served) : Prop :=
  (x.result = none ∨ ∃ y ∈ x.done, y.1.failed y.2) → ∀ y ∈ x.done, y.1.writes = true → y.1.failed y.2

/-! ## Requests that fail -/

theorem store_unchanged {o : Op} {a : Answer} {r : o.Resp}
    (executed : (store crypto toJson nets).execute w o a = some (r, w'))
    (unwritten : o.writes = true → o.failed r) : w' = w := by
  change Store.execute crypto toJson w o a = some (r, w') at executed
  cases a with
  | failed reason => cases o <;> cases executed <;> rfl
  | encrypted secret =>
    cases o with
    | encrypt plaintext =>
      obtain ⟨-, eq⟩ := Option.ite_none_right_eq_some.mp executed
      exact (Prod.mk.inj (Option.some.inj eq)).2.symm
    | _ => cases executed
  | ok =>
    cases o with
    | insertConfigKey key value =>
      have failed := unwritten rfl
      cases there : (Config.value key w.config).isSome with
      | true =>
        simp only [Store.execute, Config.insert, there, if_true] at executed
        cases executed
        rfl
      | false =>
        simp only [Store.execute, Config.insert, there, Bool.false_eq_true, if_false] at executed
        cases executed
        cases failed
    | updateOidcConfig | updateConfigKey | deleteConfigKey | updateIpWhitelist =>
      -- these do not fail
      cases executed
      cases unwritten rfl
    | encrypt => cases executed
    | loadKey | logEvent | loadSystemConfig | fetchOidcConfig =>
      cases executed
      rfl

theorem unchanged {α : Type} {p : Prog α} {result : Option α}
    (serves : Serves (store crypto toJson nets) w p l result w')
    (unwritten : ∀ y ∈ l, y.1.writes = true → y.1.failed y.2) : w' = w := by
  induction serves with
  | ret | cut => rfl
  | op executed _ ih =>
    rw [ih fun y mem => unwritten y (by simp [mem])]
    exact store_unchanged executed (unwritten _ List.mem_cons_self)
  | spawn _ ih => exact ih unwritten

theorem updateSettings_failsOnly (req : UpdateSettingsRequest) {auth : AuthUser}
    (permitted : adminRequired auth = .ok ()) : (updateSettings auth req).FailsOnly Op.failed := by
  rw [updateSettings, permitted]
  refine .bind (Quiet.ifSome .updateOidc).failsOnly fun _ => .bind (Quiet.ifSome .updateSmtp).failsOnly fun _ =>
    .bind (Quiet.ifSome .updatePolling).failsOnly fun _ => .bind ?_ fun _ => (quiet_rest req).failsOnly
  cases req.ipWhitelist with
  | none => exact rfl
  | some entries => exact storeIpWhitelist_failsOnly

theorem kept_of_error {auth : AuthUser} {req : UpdateSettingsRequest} {e : ApiError}
    (serves : Serves (store crypto toJson nets) w (updateSettings auth req) l (some (.error e)) w')
    (clean : (∃ y ∈ l, y.1.failed y.2) → ∀ y ∈ l, y.1.writes = true → y.1.failed y.2) : w' = w := by
  cases permitted : adminRequired auth with
  | error e =>
    rw [updateSettings, permitted] at serves
    obtain ⟨-, same, -⟩ := serves.ret_inv
    exact same
  | ok u =>
    by_cases bad : ∃ y ∈ l, y.1.failed y.2
    · exact unchanged serves (clean bad)
    · have ok := serves.isOk (updateSettings_failsOnly req permitted) fun y mem failed => bad ⟨y, mem, failed⟩
      cases ok

/-! ## Requests that succeed -/

/-- The rows after a setting that may be given. -/
def setting (key : String) (v : Option String) (rows : Config.Rows) : Config.Rows :=
  match v with
  | some text => (Config.update key text).apply rows
  | none => rows

@[simp] theorem value_setting {key other : String} {v : Option String} :
    Config.value key (setting other v rows) =
      if key = other then (Config.value key rows).map fun text => v.getD text else Config.value key rows := by
  cases v with
  | none => simp [setting]
  | some text => simp [setting]

theorem isSome_setting {key other : String} {v : Option String} :
    (Config.value key (setting other v rows)).isSome = (Config.value key rows).isSome := by
  rw [value_setting]
  split_ifs
  · rw [Option.isSome_map]
  · rfl

/-- The rows after a password that may be given. -/
inductive PasswordStored (crypto : Crypto) (rows : Config.Rows) : Option String → Config.Rows → Prop
  | kept : PasswordStored crypto rows none rows
  | stored {password : String} {ciphertext nonce : List UInt8}
      (encryption : crypto.isEncryption password ciphertext nonce = true)
      (absent : Config.value "smtp_password_encrypted" rows = none)
      (absent' : Config.value "smtp_password_nonce" rows = none) :
    PasswordStored crypto rows (some password) (Config.delete "smtp_password" rows ++
      [("smtp_password_encrypted", Hex.encode ciphertext)] ++ [("smtp_password_nonce", Hex.encode nonce)])

section effects

theorem updateConfigKey_ok {key : String} {value : ConfigValue}
    (serves : Serves (store crypto toJson nets) w (updateConfigKey key value) l (some (.ok ())) w') :
    w'.config = (Config.update key (value.render toJson)).apply w.config := by
  rcases serves.op_inv with ⟨-, -, eq⟩ | ⟨a, r, w₁, rest, executed, later, -⟩
  · cases eq
  · cases a <;> cases executed
    · obtain ⟨-, rfl, -⟩ := later.ret_inv
      rfl
    · obtain ⟨-, -, eq | eq⟩ := later.ret_inv <;> cases eq

theorem ifSome_ok {α : Type} {v : Option α} {key : String} {value : α → ConfigValue}
    (serves : Serves (store crypto toJson nets) w (ifSome v fun a => updateConfigKey key (value a)) l
      (some (.ok ())) w') :
    w'.config = setting key (v.map fun a => (value a).render toJson) w.config := by
  cases v with
  | none =>
    obtain ⟨-, rfl, -⟩ := serves.ret_inv
    rfl
  | some a => exact updateConfigKey_ok serves

theorem deleteConfigKey_ok {key : String}
    (serves : Serves (store crypto toJson nets) w (orDatabase (perform (.deleteConfigKey key))) l
      (some (.ok ())) w') : w'.config = Config.delete key w.config := by
  rcases serves.op_inv with ⟨-, -, eq⟩ | ⟨a, r, w₁, rest, executed, later, -⟩
  · cases eq
  · cases a <;> cases executed
    · obtain ⟨-, rfl, -⟩ := later.ret_inv
      rfl
    · obtain ⟨-, -, eq | eq⟩ := later.ret_inv <;> cases eq

theorem insertConfigKey_ok {key : String} {value : List UInt8}
    (serves : Serves (store crypto toJson nets) w (orDatabase (perform (.insertConfigKey key value))) l
      (some (.ok ())) w') :
    Config.value key w.config = none ∧ w'.config = w.config ++ [(key, Hex.encode value)] := by
  rcases serves.op_inv with ⟨-, -, eq⟩ | ⟨a, r, w₁, rest, executed, later, -⟩
  · cases eq
  · cases a with
    | ok =>
      cases there : (Config.value key w.config).isSome with
      | true =>
        simp only [store, Store.execute, Config.insert, there, if_true] at executed
        cases executed
        obtain ⟨-, -, eq | eq⟩ := later.ret_inv <;> cases eq
      | false =>
        simp only [store, Store.execute, Config.insert, there, Bool.false_eq_true, if_false] at executed
        cases executed
        obtain ⟨-, rfl, -⟩ := later.ret_inv
        exact ⟨by simpa using there, rfl⟩
    | failed reason =>
      cases executed
      obtain ⟨-, -, eq | eq⟩ := later.ret_inv <;> cases eq
    | encrypted secret => cases executed

theorem encryptSecret_ok {plaintext : String} {secret : Encrypted}
    (serves : Serves (store crypto toJson nets) w (encryptSecret plaintext) l (some (.ok secret)) w') :
    crypto.isEncryption plaintext secret.ciphertext secret.nonce = true := by
  rcases serves.attempt_inv with ⟨_, _, w₁, _, -, second, -⟩ | ⟨other, -⟩
  · rcases second.op_inv with ⟨-, -, eq⟩ | ⟨a, r, w₂, rest, executed, last, -⟩
    · cases eq
    · cases a with
      | encrypted secret' =>
        obtain ⟨encryption, eq⟩ := Option.ite_none_right_eq_some.mp executed
        obtain ⟨rfl, -⟩ := Prod.mk.inj (Option.some.inj eq)
        obtain ⟨-, -, eq | eq⟩ := last.ret_inv <;> cases eq
        exact encryption
      | failed reason =>
        cases executed
        obtain ⟨-, -, eq | eq⟩ := last.ret_inv <;> cases eq
      | ok => cases executed
  · exact absurd rfl (other secret)

/-! ### Parts that do not write rows of `system_config` -/

def Op.configures : Op → Bool
  | .updateConfigKey _ _ | .deleteConfigKey _ | .insertConfigKey _ _ => true
  | _ => false

abbrev Aside {α : Type} (p : Prog α) : Prop :=
  p.Within (fun o => o.configures = false) (fun _ => False) (fun _ => False)

theorem config_kept {α : Type} {p : Prog α} {result : Option α} (aside : Aside p)
    (serves : Serves (store crypto toJson nets) w p l result w') : w'.config = w.config := by
  refine serves.within (I := fun v => v.config = w.config) aside ?_ rfl
  intro w₁ o a r w₂ other executed same
  change Store.execute crypto toJson w₁ o a = some (r, w₂) at executed
  cases o with
  | updateConfigKey | deleteConfigKey | insertConfigKey => cases other
  | encrypt plaintext =>
    cases a with
    | encrypted secret =>
      obtain ⟨-, eq⟩ := Option.ite_none_right_eq_some.mp executed
      exact (Prod.mk.inj (Option.some.inj eq)).2 ▸ same
    | _ => cases executed <;> exact same
  | _ => cases a <;> cases executed <;> exact same

theorem perform_aside {α : Type} {message : String → String} {p : Prog (Except String α)} (aside : Aside p) :
    Aside (orInternal message p) := aside.bind fun _ => .ret _

theorem logEvent_aside (action : AuditAction) (target : String) : Aside (logEvent action target) :=
  .op rfl fun _ => .ret _

theorem encryptSecret_aside (plaintext : String) : Aside (encryptSecret plaintext) :=
  .attempt (perform_aside (p := perform .loadKey) (.op rfl fun _ => .ret _)) fun _ =>
    perform_aside (p := perform (.encrypt plaintext)) (.op rfl fun _ => .ret _)

theorem updateOidc_aside (oidc : OidcConfigUpdate) : Aside (updateOidc oidc) := by
  refine .attempt ?_ fun secret => .attempt ?_ fun _ => .attempt (logEvent_aside _ _) fun _ => .ret _
  · split
    · exact (encryptSecret_aside _).attempt fun _ => .ret _
    · exact .ret _
  · exact perform_aside (p := perform (.updateOidcConfig oidc secret)) (.op rfl fun _ => .ret _)

/-! ### Parts that do -/

theorem updateSmtpPassword_ok {password : Option String}
    (serves : Serves (store crypto toJson nets) w (ifSome password updateSmtpPassword) l (some (.ok ())) w') :
    PasswordStored crypto w.config (password.filter (· ≠ masked)) w'.config := by
  cases password with
  | none =>
    obtain ⟨-, rfl, -⟩ := serves.ret_inv
    exact .kept
  | some password =>
    simp only [ifSome, updateSmtpPassword] at serves
    by_cases mask : password = masked
    · rw [if_pos mask] at serves
      obtain ⟨-, rfl, -⟩ := serves.ret_inv
      simpa [mask, Option.filter] using PasswordStored.kept
    · rw [if_neg mask] at serves
      rcases serves.attempt_inv with ⟨_, secret, w₁, _, encrypted, rest, -⟩ | ⟨other, -⟩
      · have same := config_kept (encryptSecret_aside password) encrypted
        obtain ⟨_, w₂, _, deleted, rest⟩ := rest.steps_inv
        obtain ⟨_, w₃, _, first, rest⟩ := rest.steps_inv
        obtain ⟨_, w₄, _, second, rest⟩ := rest.steps_inv
        obtain ⟨-, rfl, -⟩ := rest.ret_inv
        have deleted := deleteConfigKey_ok deleted
        obtain ⟨absent, first⟩ := insertConfigKey_ok first
        obtain ⟨absent', second⟩ := insertConfigKey_ok second
        rw [same] at deleted
        rw [deleted] at first absent
        rw [first] at second absent'
        rw [second, Option.filter_some, if_pos (by simpa using mask)]
        exact .stored (encryptSecret_ok encrypted) (by simpa using absent) (by simpa using absent')
      · exact absurd rfl (other ())

/-- The settings of a request that come before the password. -/
def before (smtp : Option SmtpConfigUpdate) (rows : Config.Rows) : Config.Rows :=
  setting "smtp_username" (smtp.bind (·.username)) <| setting "smtp_port" ((smtp.bind (·.port)).map toString) <|
    setting "smtp_host" (smtp.bind (·.host)) <| setting "smtp_enabled" ((smtp.bind (·.enabled)).map toString) rows

/-- Those that come after it. -/
def after (smtp : Option SmtpConfigUpdate) (rows : Config.Rows) : Config.Rows :=
  setting "smtp_tls_mode" (smtp.bind (·.tlsMode)) <| setting "smtp_from" (smtp.bind (·.sender)) rows

theorem updateSmtp_ok {smtp : Option SmtpConfigUpdate}
    (serves : Serves (store crypto toJson nets) w (ifSome smtp updateSmtp) l (some (.ok ())) w') :
    ∃ rows, PasswordStored crypto (before smtp w.config) ((smtp.bind (·.password)).filter (· ≠ masked)) rows ∧
      w'.config = after smtp rows := by
  cases smtp with
  | none =>
    obtain ⟨-, rfl, -⟩ := serves.ret_inv
    exact ⟨w'.config, .kept, rfl⟩
  | some smtp =>
    obtain ⟨_, w₁, _, enabled, rest⟩ := Serves.steps_inv serves
    obtain ⟨_, w₂, _, host, rest⟩ := rest.steps_inv
    obtain ⟨_, w₃, _, port, rest⟩ := rest.steps_inv
    obtain ⟨_, w₄, _, username, rest⟩ := rest.steps_inv
    obtain ⟨_, w₅, _, password, rest⟩ := rest.steps_inv
    obtain ⟨_, w₆, _, sender, rest⟩ := rest.steps_inv
    obtain ⟨_, w₇, _, tlsMode, rest⟩ := rest.steps_inv
    obtain ⟨_, w₈, _, logged, rest⟩ := rest.steps_inv
    obtain ⟨-, rfl, -⟩ := rest.ret_inv
    have stored := updateSmtpPassword_ok password
    rw [ifSome_ok username, ifSome_ok port, ifSome_ok host, ifSome_ok enabled] at stored
    refine ⟨w₅.config, ?_, ?_⟩
    · simpa [before, ConfigValue.render] using stored
    · rw [config_kept (logEvent_aside _ _) logged, ifSome_ok tlsMode, ifSome_ok sender]
      simp [after, ConfigValue.render]

/-- The settings of a request for anything but mail. -/
def others (toJson : List String → String) (req : UpdateSettingsRequest) (rows : Config.Rows) : Config.Rows :=
  setting "notification_email_recipients" ((req.notification.bind (·.recipients)).map toJson) <|
  setting "notification_email_from" (req.notification.bind (·.emailFrom)) <|
  setting "notification_email_enabled" ((req.notification.bind (·.emailEnabled)).map toString) <|
  setting "web_tls_strategy" req.webTlsStrategy <|
  setting "ip_whitelist" (req.ipWhitelist.map fun l => toJson (l.map String.ofList)) <|
  setting "patch_poll_interval_secs" ((req.polling.bind (·.patchPollIntervalSecs)).map toString) <|
  setting "health_poll_interval_secs" ((req.polling.bind (·.healthPollIntervalSecs)).map toString) rows

theorem updatePolling_ok {polling : Option PollingConfigUpdate}
    (serves : Serves (store crypto toJson nets) w (ifSome polling updatePolling) l (some (.ok ())) w') :
    w'.config = setting "patch_poll_interval_secs" ((polling.bind (·.patchPollIntervalSecs)).map toString)
      (setting "health_poll_interval_secs" ((polling.bind (·.healthPollIntervalSecs)).map toString) w.config) := by
  cases polling with
  | none =>
    obtain ⟨-, rfl, -⟩ := serves.ret_inv
    rfl
  | some polling =>
    obtain ⟨_, w₁, _, health, rest⟩ := Serves.steps_inv serves
    obtain ⟨_, w₂, _, patch, rest⟩ := rest.steps_inv
    obtain ⟨_, w₃, _, logged, rest⟩ := rest.steps_inv
    obtain ⟨-, rfl, -⟩ := rest.ret_inv
    rw [config_kept (logEvent_aside _ _) logged, ifSome_ok patch, ifSome_ok health]
    rfl

theorem storeIpWhitelist_ok {list : Option (List (List Char))}
    (serves : Serves (store crypto toJson nets) w (ifSome list storeIpWhitelist) l (some (.ok ())) w') :
    w'.config = setting "ip_whitelist" (list.map fun l => toJson (l.map String.ofList)) w.config := by
  cases list with
  | none =>
    obtain ⟨-, rfl, -⟩ := serves.ret_inv
    rfl
  | some entries =>
    obtain ⟨_, w₁, _, stored, rest⟩ := Serves.steps_inv serves
    obtain ⟨_, w₂, _, enforced, rest⟩ := rest.steps_inv
    obtain ⟨_, w₃, _, logged, rest⟩ := rest.steps_inv
    obtain ⟨-, rfl, -⟩ := rest.ret_inv
    have aside : Aside ((perform (.updateIpWhitelist entries)).bind fun _ => .ret (.ok () : Except ApiError Unit)) :=
      .op rfl fun _ => .ret _
    rw [config_kept (logEvent_aside _ _) logged, config_kept aside enforced, updateConfigKey_ok stored]
    rfl

theorem updateWebTlsStrategy_ok {v : Option String}
    (serves : Serves (store crypto toJson nets) w (ifSome v updateWebTlsStrategy) l (some (.ok ())) w') :
    w'.config = setting "web_tls_strategy" v w.config := by
  cases v with
  | none =>
    obtain ⟨-, rfl, -⟩ := serves.ret_inv
    rfl
  | some v =>
    obtain ⟨_, w₁, _, stored, rest⟩ := Serves.steps_inv serves
    obtain ⟨_, w₂, _, logged, rest⟩ := rest.steps_inv
    obtain ⟨-, rfl, -⟩ := rest.ret_inv
    rw [config_kept (logEvent_aside _ _) logged, updateConfigKey_ok stored]
    rfl

theorem updateNotification_ok {notif : Option NotificationConfigUpdate}
    (serves : Serves (store crypto toJson nets) w (ifSome notif updateNotification) l (some (.ok ())) w') :
    w'.config = setting "notification_email_recipients" ((notif.bind (·.recipients)).map toJson)
      (setting "notification_email_from" (notif.bind (·.emailFrom))
        (setting "notification_email_enabled" ((notif.bind (·.emailEnabled)).map toString) w.config)) := by
  cases notif with
  | none =>
    obtain ⟨-, rfl, -⟩ := serves.ret_inv
    rfl
  | some notif =>
    obtain ⟨_, w₁, _, enabled, rest⟩ := Serves.steps_inv serves
    obtain ⟨_, w₂, _, sender, rest⟩ := rest.steps_inv
    obtain ⟨_, w₃, _, recipients, rest⟩ := rest.steps_inv
    obtain ⟨_, w₄, _, logged, rest⟩ := rest.steps_inv
    obtain ⟨-, rfl, -⟩ := rest.ret_inv
    rw [config_kept (logEvent_aside _ _) logged, ifSome_ok recipients, ifSome_ok sender, ifSome_ok enabled]
    simp [ConfigValue.render]

/-- What a successful request does to `system_config`. -/
theorem updateSettings_ok {auth : AuthUser} {req : UpdateSettingsRequest}
    (serves : Serves (store crypto toJson nets) w (updateSettings auth req) l (some (.ok ())) w') :
    ∃ rows, PasswordStored crypto (before req.smtp w.config) req.password rows ∧
      w'.config = others toJson req (after req.smtp rows) := by
  cases permitted : adminRequired auth with
  | error e =>
    rw [updateSettings, permitted] at serves
    obtain ⟨-, -, eq | eq⟩ := serves.ret_inv <;> cases eq
  | ok u =>
    rw [updateSettings, permitted] at serves
    obtain ⟨_, w₁, _, oidc, rest⟩ := Serves.steps_inv serves
    obtain ⟨_, w₂, _, smtp, rest⟩ := rest.steps_inv
    obtain ⟨_, w₃, _, polling, rest⟩ := rest.steps_inv
    obtain ⟨_, w₄, _, list, rest⟩ := rest.steps_inv
    obtain ⟨_, w₅, _, strategy, rest⟩ := rest.steps_inv
    obtain ⟨_, w₆, _, notif, rest⟩ := rest.steps_inv
    obtain ⟨_, w₇, _, loaded, rest⟩ := rest.steps_inv
    obtain ⟨_, w₈, _, fetched, rest⟩ := rest.steps_inv
    obtain ⟨-, rfl, -⟩ := rest.ret_inv
    have first : w₁.config = w.config := by
      refine config_kept ?_ oidc
      cases req.oidc with
      | none => exact .ret _
      | some oidc => exact updateOidc_aside oidc
    obtain ⟨rows, stored, second⟩ := updateSmtp_ok smtp
    rw [first] at stored
    refine ⟨rows, stored, ?_⟩
    rw [config_kept (perform_aside (p := perform .fetchOidcConfig) (.op rfl fun _ => .ret _)) fetched,
      config_kept (perform_aside (p := perform .loadSystemConfig) (.op rfl fun _ => .ret _)) loaded,
      updateNotification_ok notif, updateWebTlsStrategy_ok strategy, storeIpWhitelist_ok list,
      updatePolling_ok polling, second]
    rfl

end effects

/-! ## What is loaded -/

theorem PasswordStored.value_other {password : Option String} {rows' : Config.Rows} {key : String}
    (stored : PasswordStored crypto rows password rows')
    (other : key ≠ "smtp_password" ∧ key ≠ "smtp_password_encrypted" ∧ key ≠ "smtp_password_nonce") :
    Config.value key rows' = Config.value key rows := by
  cases stored with
  | kept => rfl
  | stored =>
    rw [Config.value_append, Config.value_append, Config.value_delete]
    simp [other.1, other.2.1, other.2.2]

/-- The password in the rows. -/
def passwordOf (crypto : Crypto) (rows : Config.Rows) : String :=
  Email.decryptPassword (.ok crypto) ((Config.value "smtp_password_encrypted" rows).getD "")
    ((Config.value "smtp_password_nonce" rows).getD "")

theorem PasswordStored.password {password : Option String} {rows' : Config.Rows}
    (stored : PasswordStored crypto rows password rows') :
    passwordOf crypto rows' = password.getD (passwordOf crypto rows) := by
  cases stored with
  | kept => rfl
  | stored encryption absent absent' =>
    simp only [passwordOf, Config.value_append, Config.value_delete, absent, absent']
    simp [Email.decryptPassword_encryption encryption]

theorem smtpSettings_eq : w.smtpSettings crypto =
    { enabled := (Config.value "smtp_enabled" w.config).getD "" == "true"
      host := (Config.value "smtp_host" w.config).getD ""
      port := ((Str.parseUnsigned 65536 ((Config.value "smtp_port" w.config).getD "").toList).map
        UInt16.ofNat).getD 587
      username := (Config.value "smtp_username" w.config).getD ""
      password := passwordOf crypto w.config
      sender := (Config.value "smtp_from" w.config).getD ""
      tlsMode := (Config.value "smtp_tls_mode" w.config).getD "" } := by
  have value {key : String} (mem : key ∈ Email.smtpKeys) : Config.value key (Email.smtpRows w.config) =
    Config.value key w.config := Email.value_smtpRows mem
  simp only [Store.smtpSettings, Email.loadSmtpSettings, Except.toOption, Option.getD_some, passwordOf]
  rw [value (by decide), value (by decide), value (by decide), value (by decide), value (by decide),
    value (by decide), value (by decide), value (by decide)]

section succeeds

variable {auth : AuthUser} {req : UpdateSettingsRequest}
  (serves : Serves (store crypto toJson nets) w (updateSettings auth req) l (some (.ok ())) w')

include serves

theorem password_of_success : (w'.smtpSettings crypto).password =
    req.password.getD (w.smtpSettings crypto).password := by
  obtain ⟨rows, stored, eq⟩ := updateSettings_ok serves
  have same : passwordOf crypto w'.config = passwordOf crypto rows := by
    simp [eq, passwordOf, others, after]
  have same' : passwordOf crypto (before req.smtp w.config) = passwordOf crypto w.config := by
    simp [passwordOf, before]
  rw [smtpSettings_eq, smtpSettings_eq]
  dsimp only
  rw [same, stored.password, same']

theorem seeded_of_success (seeded : Seeded w) : Seeded w' := by
  obtain ⟨rows, stored, eq⟩ := updateSettings_ok serves
  intro key mem
  have other : ∀ key ∈ ["smtp_enabled", "smtp_host", "smtp_port", "smtp_username", "smtp_from", "smtp_tls_mode"],
      key ≠ "smtp_password" ∧ key ≠ "smtp_password_encrypted" ∧ key ≠ "smtp_password_nonce" := by decide
  have kept := seeded key mem
  rw [eq]
  simp only [others, after, isSome_setting]
  rw [stored.value_other (other key mem)]
  simpa only [before, isSome_setting] using kept

theorem yields_of_success {smtp : SmtpConfigUpdate} (seeded : Seeded w) (given : req.smtp = some smtp) :
    Yields (w'.smtpSettings crypto) smtp := by
  obtain ⟨rows, stored, eq⟩ := updateSettings_ok serves
  rw [given] at stored eq
  rw [smtpSettings_eq]
  refine ⟨?enabled, ?host, ?port, ?username, ?sender, ?tlsMode⟩
  case enabled =>
    intro v given
    obtain ⟨text, there⟩ := Option.isSome_iff_exists.mp (seeded "smtp_enabled" (by decide))
    have value : Config.value "smtp_enabled" w'.config = some (toString v) := by
      simp [eq, others, after, stored.value_other, before, there, given]
    simp only [value, Option.getD_some]
    cases v <;> decide
  case host =>
    intro v given
    obtain ⟨text, there⟩ := Option.isSome_iff_exists.mp (seeded "smtp_host" (by decide))
    simp [eq, others, after, stored.value_other, before, there, given]
  case port =>
    intro v given
    obtain ⟨text, there⟩ := Option.isSome_iff_exists.mp (seeded "smtp_port" (by decide))
    have value : Config.value "smtp_port" w'.config = some (toString v) := by
      simp [eq, others, after, stored.value_other, before, there, given]
    have digits : (toString v).toList = Nat.toDigits 10 v.toNat := Nat.toList_repr
    simp only [value, Option.getD_some, digits, Str.parseUnsigned_toDigits v.toNat_lt, Option.map_some,
      UInt16.ofNat_toNat]
  case username =>
    intro v given
    obtain ⟨text, there⟩ := Option.isSome_iff_exists.mp (seeded "smtp_username" (by decide))
    simp [eq, others, after, stored.value_other, before, there, given]
  case sender =>
    intro v given
    obtain ⟨text, there⟩ := Option.isSome_iff_exists.mp (seeded "smtp_from" (by decide))
    simp [eq, others, after, stored.value_other, before, there, given]
  case tlsMode =>
    intro v given
    obtain ⟨text, there⟩ := Option.isSome_iff_exists.mp (seeded "smtp_tls_mode" (by decide))
    simp [eq, others, after, stored.value_other, before, there, given]

end succeeds

/-! ## Sequences -/

variable {served : List Served}

theorem Served.Clean.kept {x : Served} (clean : x.Clean)
    (serves : Serves (store crypto toJson nets) x.pre (updateSettings x.auth x.req) x.done x.result x.post)
    (unsuccessful : x.result ≠ some (.ok ())) : x.post = x.pre := by
  cases result : x.result with
  | none => exact unchanged serves (clean (.inl result))
  | some r =>
    cases r with
    | ok u => exact absurd result unsuccessful
    | error e =>
      rw [result] at serves
      exact kept_of_error serves fun bad => clean (.inr bad)

/-- What holds after every request: the settings are there, and the password is the last one. -/
theorem Sequence.settled (sequence : Sequence crypto toJson nets w served w') (seeded : Seeded w)
    (clean : ∀ x ∈ served, x.Clean) :
    Seeded w' ∧ (w'.smtpSettings crypto).password = lastPassword (w.smtpSettings crypto).password served := by
  induction sequence with
  | nil => exact ⟨seeded, rfl⟩
  | @snoc served x _ serves ih =>
    obtain ⟨seeded', password⟩ := ih fun y mem => clean y (by simp [mem])
    rw [lastPassword_snoc, ← password]
    by_cases success : x.result = some (.ok ())
    · rw [Served.password, success]
      rw [success] at serves
      exact ⟨seeded_of_success serves seeded', password_of_success serves⟩
    · rw [(clean x (by simp)).kept serves success]
      refine ⟨seeded', ?_⟩
      unfold Served.password
      split
      · rename_i eq
        exact absurd eq success
      · rfl

theorem Sequence.split {l₁ l₂ : List Served} {x : Served}
    (sequence : Sequence crypto toJson nets w (l₁ ++ x :: l₂) w') :
    Sequence crypto toJson nets w l₁ x.pre ∧
      Serves (store crypto toJson nets) x.pre (updateSettings x.auth x.req) x.done x.result x.post := by
  generalize eq : l₁ ++ x :: l₂ = served at sequence
  induction sequence generalizing l₂ with
  | nil => simp at eq
  | @snoc served y before serves ih =>
    rcases split_snoc eq.symm with ⟨rfl, rfl, rfl⟩ | ⟨m, rfl, rfl⟩
    · exact ⟨before, serves⟩
    · exact ih rfl

/-- Where no request is broken off or fails once it has written, settings are saved or kept. -/
theorem settings_saved (seeded : Seeded w) (sequence : Sequence crypto toJson nets w served w')
    (clean : ∀ x ∈ served, x.Clean) : Saved crypto w served := by
  refine ⟨?saved, ?kept⟩
  case saved =>
    intro l₁ x l₂ eq success
    subst eq
    obtain ⟨before, serves⟩ := sequence.split
    have earlier : ∀ y ∈ l₁, y.Clean := fun y mem => clean y (by simp [mem])
    have now : ∀ y ∈ l₁ ++ [x], y.Clean := fun y mem => clean y (by grind)
    have password := ((before.snoc serves).settled seeded now).2
    rw [success] at serves
    exact ⟨fun smtp given => yields_of_success serves (before.settled seeded earlier).1 given, password⟩
  case kept =>
    intro x mem e result
    obtain ⟨l₁, l₂, rfl⟩ := List.append_of_mem mem
    exact (clean x mem).kept sequence.split.2 (by simp [result])

namespace Small

/-- A cipher that repeats one byte. -/
def cipher : Crypto where
  decrypt ciphertext _ := if ciphertext.length = 18 then some "pw" else none

def secret : Encrypted := ⟨List.replicate 18 7, List.replicate 12 0⟩

def migrated : Store where
  config := [("smtp_enabled", "false"), ("smtp_host", ""), ("smtp_port", "587"), ("smtp_username", ""),
    ("smtp_from", ""), ("smtp_tls_mode", "starttls")]
  oidcConfig := ⟨false, "custom", "", "", "", none, none, "", ""⟩
  ipWhitelist := []

/-- The rows once a password has been saved. -/
def saved : Store :=
  { migrated with config := migrated.config ++ [("smtp_password_encrypted", Hex.encode secret.ciphertext)] ++
    [("smtp_password_nonce", Hex.encode secret.nonce)] }

/-- A password, and a host that may be given. -/
def request (host : Option String) : UpdateSettingsRequest where
  oidc := none
  smtp := some ⟨none, host, none, none, some "pw", none, none⟩
  polling := none
  ipWhitelist := none
  webTlsStrategy := none
  notification := none

/-- The first password goes in. -/
def first : Served where
  pre := migrated
  auth := administrator
  req := request none
  done := [⟨.loadKey, .ok ()⟩, ⟨.encrypt "pw", .ok secret⟩, ⟨.deleteConfigKey "smtp_password", .ok ()⟩,
    ⟨.insertConfigKey "smtp_password_encrypted" secret.ciphertext, .ok ()⟩,
    ⟨.insertConfigKey "smtp_password_nonce" secret.nonce, .ok ()⟩, ⟨.logEvent .smtpConfigUpdated "smtp", ()⟩,
    ⟨.loadSystemConfig, .ok ()⟩, ⟨.fetchOidcConfig, .ok ()⟩]
  result := some (.ok ())
  post := saved

/-- The second does not, and the host has been changed. -/
def second : Served where
  pre := saved
  auth := administrator
  req := request (some "mail")
  done := [⟨.updateConfigKey "smtp_host" (.text "mail"), .ok ()⟩, ⟨.loadKey, .ok ()⟩, ⟨.encrypt "pw", .ok secret⟩,
    ⟨.deleteConfigKey "smtp_password", .ok ()⟩,
    ⟨.insertConfigKey "smtp_password_encrypted" secret.ciphertext, .error "duplicate key"⟩]
  result := some (.error (internalError "Database error"))
  post := { saved with config := (Config.update "smtp_host" "mail").apply saved.config }

theorem first_serves : Serves (store cipher (fun _ => "") ipNets) migrated (updateSettings administrator (request none))
    first.done first.result saved :=
  .op (a := Answer.ok) rfl (.op (a := Answer.encrypted secret) rfl (.op (a := Answer.ok) rfl
    (.op (a := Answer.ok) rfl (.op (a := Answer.ok) rfl (.op (a := Answer.ok) rfl (.op (a := Answer.ok) rfl
      (.op (a := Answer.ok) rfl .ret)))))))

theorem second_serves : Serves (store cipher (fun _ => "") ipNets) saved
    (updateSettings administrator (request (some "mail"))) second.done second.result second.post :=
  .op (a := Answer.ok) rfl (.op (a := Answer.ok) rfl (.op (a := Answer.encrypted secret) rfl
    (.op (a := Answer.ok) rfl (.op (a := Answer.ok) rfl .ret))))

end Small

theorem settings_saved_first : Saved Small.cipher Small.migrated [Small.first] := by
  have sequence : Sequence Small.cipher (fun _ => "") Small.ipNets Small.migrated ([] ++ [Small.first]) Small.saved :=
    .snoc .nil Small.first_serves
  refine settings_saved (by unfold Seeded; decide +kernel) sequence ?_
  intro x mem bad
  obtain rfl := List.mem_singleton.mp mem
  simp [Small.first, Op.failed, Except.isOk, Except.toBool] at bad

/-- The second request with a password fails, and the host has been changed. -/
theorem second_password : ¬ ∀ (crypto : Crypto) (toJson : List String → String) (nets : IpNetCrate) (w w' : Store)
    (served : List Served), Seeded w → Sequence crypto toJson nets w served w' → Saved crypto w served := by
  intro all
  have sequence : Sequence Small.cipher (fun _ => "") Small.ipNets Small.migrated ([] ++ [Small.first] ++ [Small.second])
    Small.second.post := .snoc (.snoc .nil Small.first_serves) Small.second_serves
  have kept := (all _ _ _ _ _ _ (by unfold Seeded; decide +kernel) sequence).kept Small.second (by simp) _ rfl
  have changed : Config.value "smtp_host" Small.second.post.config ≠ Config.value "smtp_host" Small.second.pre.config := by
    decide +kernel
  exact changed (by rw [kept])

end PatchManager.Settings
