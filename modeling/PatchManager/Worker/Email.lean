import PatchManager.Core.Crypto
import PatchManager.Db.Config
import PatchManager.Text.Hex

/-! # Settings for mail

`load_smtp_settings` of `email.rs`.
-/

namespace PatchManager.Email

structure SmtpSettings where
  enabled : Bool
  host : String
  port : UInt16
  username : String
  password : String
  sender : String
  tlsMode : String
deriving DecidableEq

def smtpKeys : List String :=
  ["smtp_enabled", "smtp_host", "smtp_port", "smtp_username", "smtp_password_encrypted",
    "smtp_password_nonce", "smtp_from", "smtp_tls_mode"]

/-- The password, from its two rows. -/
def decryptPassword (key : Except String Crypto) (encHex nonceHex : String) : String :=
  if !encHex.isEmpty && !nonceHex.isEmpty then
    match Hex.decode encHex, Hex.decode nonceHex, key with
    | some enc, some nonce, .ok crypto => (crypto.decrypt enc nonce).getD ""
    | _, _, _ => ""
  else ""

/-- `answer`: to the `SELECT`; no rows where it fails. -/
def loadSmtpSettings (key : Except String Crypto) (answer : Except String Config.Rows) : SmtpSettings :=
  let rows := answer.toOption.getD []
  let get key := (Config.value key rows).getD ""
  { enabled := get "smtp_enabled" == "true"
    host := get "smtp_host"
    port := ((Str.parseUnsigned 65536 (get "smtp_port").toList).map UInt16.ofNat).getD 587
    username := get "smtp_username"
    password := decryptPassword key (get "smtp_password_encrypted") (get "smtp_password_nonce")
    sender := get "smtp_from"
    tlsMode := get "smtp_tls_mode" }

/-- `SELECT key, value FROM system_config WHERE key IN (..)`. -/
def smtpRows (rows : Config.Rows) : Config.Rows := rows.filter fun row => smtpKeys.contains row.1

variable {key : Except String Crypto} {crypto : Crypto} {rows : Config.Rows} {name password : String}
  {ciphertext nonce : List UInt8}

theorem value_smtpRows (mem : name ∈ smtpKeys) : Config.value name (smtpRows rows) = Config.value name rows := by
  rw [Config.value, Config.value, Sql.lookup, Sql.lookup, smtpRows, List.find?_filter]
  congr 2
  funext row
  by_cases same : row.1 = name
  · subst same
    simp [mem]
  · simp [same]

theorem decryptPassword_encryption (encryption : crypto.isEncryption password ciphertext nonce = true) :
    decryptPassword (.ok crypto) (Hex.encode ciphertext) (Hex.encode nonce) = password := by
  obtain ⟨nonempty, nonempty'⟩ := Crypto.nonempty encryption
  simp [decryptPassword, Hex.encode_isEmpty, Hex.decode_encode, Crypto.decrypt_encryption encryption, nonempty,
    nonempty']

end PatchManager.Email
