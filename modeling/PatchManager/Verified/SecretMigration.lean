import PatchManager.Migrate.Secrets

/-! # Migrating secrets

A secret that a run encrypts is the plaintext it finds.  For the columns the plaintext stays, so a
secret changed since is overwritten with it; for the password of SMTP the plaintext is deleted
before the ciphertext is there.

Main results:

* `migration_safe`: the law, where runs find nothing changed and are not broken off in between.
* `password_lost`: a run is broken off after the old row is deleted.
-/

namespace PatchManager.Migrate

open PatchManager.Conc

inductive Secret where
  | clientSecret
  | smtpPassword
  | totpSecret (userId : Uuid)
deriving DecidableEq

/-- What a run would encrypt. -/
def Database.plaintext (db : Database) : Secret → Option String
  | .clientSecret =>
    if db.hasClientSecret then (db.oidcConfig.bind (·.clientSecret)).filter (!·.isEmpty) else none
  | .smtpPassword => (Config.value "smtp_password" db.systemConfig).filter (!·.isEmpty)
  | .totpSecret userId =>
    if db.hasTotpSecret then (Sql.lookup UserRow.id userId db.users).bind (·.totpSecret) else none

/-- What the application reads. -/
def Database.decrypted (crypto : Crypto) (db : Database) : Secret → Option String
  | .clientSecret => do
    let row ← db.oidcConfig
    crypto.decrypt (← row.clientSecretEncrypted) (← row.clientSecretNonce)
  | .smtpPassword => do
    let ciphertext ← Config.value "smtp_password_encrypted" db.systemConfig
    let nonce ← Config.value "smtp_password_nonce" db.systemConfig
    crypto.decrypt (← Hex.decode ciphertext) (← Hex.decode nonce)
  | .totpSecret userId => do
    let user ← Sql.lookup UserRow.id userId db.users
    crypto.decrypt (← user.totpSecretEncrypted) (← user.totpSecretNonce)

/-- The value of a secret: what is decrypted, else the plaintext. -/
def Database.current (crypto : Crypto) (db : Database) (secret : Secret) : Option String :=
  (db.decrypted crypto secret).or (db.plaintext secret)

def Database.Recoverable (crypto : Crypto) (db : Database) (secret : Secret) (value : String) : Prop :=
  db.plaintext secret = some value ∨ db.decrypted crypto secret = some value

def Database.withClientSecret (db : Database) (ciphertext nonce : List UInt8) : Database :=
  { db with oidcConfig := db.oidcConfig.map fun row =>
      { row with clientSecretEncrypted := some ciphertext, clientSecretNonce := some nonce } }

def Database.withTotpSecret (db : Database) (userId : Uuid) (ciphertext nonce : List UInt8) : Database :=
  { db with users := (Sql.Update.mk (·.id == userId) fun u : UserRow =>
      { u with totpSecretEncrypted := some ciphertext, totpSecretNonce := some nonce }).apply db.users }

/-- What the application does to change a secret; a password goes in only once. -/
def Database.saved (db : Database) (ciphertext nonce : List UInt8) : Secret → Database
  | .clientSecret => db.withClientSecret ciphertext nonce
  | .smtpPassword =>
    let rows := Config.delete "smtp_password" db.systemConfig
    match Config.insert "smtp_password_encrypted" (Hex.encode ciphertext) rows with
    | (.error _, _) => { db with systemConfig := rows }
    | (.ok (), rows) =>
      { db with systemConfig := (Config.insert "smtp_password_nonce" (Hex.encode nonce) rows).2 }
  | .totpSecret userId => db.withTotpSecret userId ciphertext nonce

inductive Event where
  /-- a run, which may be broken off; without `mayFail` nothing fails for no reason of its own -/
  | ran (mayFail : Bool) (done : List (Exchange Op Op.Resp)) (result : Option (Except String Unit))
  | changed (secret : Secret) (value : String)

structure Stage where
  pre : Database
  event : Event
  post : Database

/-- Runs, and changes of secrets in the application, one after the other. -/
inductive Sequence (crypto : Crypto) (initial : Database) : List Stage → Database → Prop
  | nil : Sequence crypto initial [] initial
  | ran {stages : List Stage} {db db' : Database} {mayFail : Bool} {done : List (Exchange Op Op.Resp)}
      {result : Option (Except String Unit)} (before : Sequence crypto initial stages db)
      (serves : Serves (tool crypto mayFail) db (main crypto) done result db') :
    Sequence crypto initial (stages ++ [⟨db, .ran mayFail done result, db'⟩]) db'
  | changed {stages : List Stage} {db : Database} {secret : Secret} {value : String}
      {ciphertext nonce : List UInt8} (before : Sequence crypto initial stages db)
      (encryption : crypto.isEncryption value ciphertext nonce = true) :
    Sequence crypto initial (stages ++ [⟨db, .changed secret value, db.saved ciphertext nonce secret⟩])
      (db.saved ciphertext nonce secret)

/-- At every point of a run secrets are recoverable and decrypt to what they did, and a run in which
    nothing fails for no reason of its own succeeds and leaves them encrypted. -/
structure CrashSafe (crypto : Crypto) (mayFail : Bool) (result : Option (Except String Unit))
    (db db' : Database) : Prop where
  recoverable : ∀ secret value, db.current crypto secret = some value → db'.Recoverable crypto secret value
  kept : ∀ secret value, db.decrypted crypto secret = some value → db'.decrypted crypto secret = some value
  completes : mayFail = false → ∀ r, result = some r → r = .ok () ∧
    ∀ secret value, db.current crypto secret = some value → db'.decrypted crypto secret = some value

/-- Once the old row of the password is deleted, the new ones are inserted. -/
def Unbroken (done : List (Exchange Op Op.Resp)) : Prop :=
  ∀ l₁ l₂, done = l₁ ++ ⟨.deleteSmtpPassword, .ok ()⟩ :: l₂ →
    ∃ nonce, ⟨.insertConfigKey "smtp_password_nonce" nonce, .ok ()⟩ ∈ l₂

/-- The old column of the users is there, no secret has been changed since it was encrypted, a
    password in plain text is the only one, and the run is not broken off while it is moved. -/
structure Ready (crypto : Crypto) (db : Database) (done : List (Exchange Op Op.Resp)) : Prop where
  hasTotpSecret : db.hasTotpSecret = true
  unchanged : ∀ secret value plaintext, db.decrypted crypto secret = some value →
    db.plaintext secret = some plaintext → value = plaintext
  only : db.plaintext .smtpPassword ≠ none → Config.value "smtp_password_encrypted" db.systemConfig = none ∧
    Config.value "smtp_password_nonce" db.systemConfig = none
  unbroken : Unbroken done

variable {crypto : Crypto} {mayFail : Bool} {db db' db'' : Database} {secret : Secret}
  {l : List (Exchange Op Op.Resp)} {result : Option (Except String Unit)}

/-! ## What becomes of one secret -/

/-- Nothing, or its plaintext has been encrypted. -/
inductive Advances (crypto : Crypto) (db db' : Database) (secret : Secret) : Prop
  | kept (plaintext : db'.plaintext secret = db.plaintext secret)
      (decrypted : db'.decrypted crypto secret = db.decrypted crypto secret)
  | encrypted {value : String} (found : db.plaintext secret = some value)
      (decrypted : db'.decrypted crypto secret = some value)
      (left : db'.plaintext secret = some value ∨ db'.plaintext secret = none)

/-- The plaintext, if there is one, is encrypted now. -/
def Migrated (crypto : Crypto) (db db' : Database) (secret : Secret) : Prop :=
  ∀ value, db.plaintext secret = some value → db'.decrypted crypto secret = some value

namespace Advances

theorem refl (crypto : Crypto) (db : Database) (secret : Secret) : Advances crypto db db secret := .kept rfl rfl

theorem trans (first : Advances crypto db db' secret) (second : Advances crypto db' db'' secret) :
    Advances crypto db db'' secret := by
  cases first with
  | kept plaintext decrypted =>
    cases second with
    | kept plaintext' decrypted' => exact .kept (plaintext'.trans plaintext) (decrypted'.trans decrypted)
    | encrypted found decrypted' left => exact .encrypted (plaintext ▸ found) decrypted' left
  | encrypted found decrypted left =>
    cases second with
    | kept plaintext' decrypted' => exact .encrypted found (decrypted'.trans decrypted) (plaintext' ▸ left)
    | encrypted found' decrypted' left' =>
      -- the plaintext found again is the one found before
      rcases left with left | left
      · obtain rfl := Option.some.inj (left.symm.trans found')
        exact .encrypted found decrypted' left'
      · cases left.symm.trans found'

theorem migrated (first : Migrated crypto db db' secret) (advances : Advances crypto db db' secret)
    (second : Advances crypto db' db'' secret) : Migrated crypto db db'' secret := by
  intro value there
  have now := first value there
  cases second with
  | kept _ decrypted => exact decrypted.trans now
  | encrypted found decrypted _ =>
    cases advances with
    | kept plaintext _ => rw [decrypted, ← found, plaintext, there]
    | encrypted found' _ left =>
      rcases left with left | left
      · rw [decrypted, ← found, left, ← found', there]
      · cases left.symm.trans found

theorem then_migrated (advances : Advances crypto db db' secret) (second : Advances crypto db' db'' secret)
    (migrated : Migrated crypto db' db'' secret) : Migrated crypto db db'' secret := by
  intro value there
  cases advances with
  | kept plaintext _ => exact migrated value (plaintext.trans there)
  | encrypted found decrypted left =>
    obtain rfl := Option.some.inj (there.symm.trans found)
    rcases left with left | left
    · exact migrated _ left
    · cases second with
      | kept _ decrypted' => exact decrypted'.trans decrypted
      | encrypted found' _ _ => cases left.symm.trans found'

end Advances

theorem crashSafe_of_advances (unchanged : ∀ secret value plaintext, db.decrypted crypto secret = some value →
      db.plaintext secret = some plaintext → value = plaintext)
    (advances : ∀ secret, Advances crypto db db' secret)
    (completes : mayFail = false → ∀ r, result = some r → r = .ok () ∧ ∀ secret, Migrated crypto db db' secret) :
    CrashSafe crypto mayFail result db db' := by
  have kept : ∀ secret value, db.decrypted crypto secret = some value → db'.decrypted crypto secret = some value := by
    intro secret value there
    cases advances secret with
    | kept _ decrypted => exact decrypted.trans there
    | encrypted found decrypted _ => rw [decrypted, unchanged secret value _ there found]
  have cases_ : ∀ {secret value}, db.current crypto secret = some value →
      db.decrypted crypto secret = some value ∨ db.plaintext secret = some value := by
    intro secret value there
    rcases Option.or_eq_some_iff.mp there with there | ⟨-, there⟩
    · exact .inl there
    · exact .inr there
  refine ⟨fun secret value there => ?_, kept, fun reliable r returned => ?_⟩
  · rcases cases_ there with there | there
    · exact .inr (kept secret value there)
    · cases advances secret with
      | kept plaintext _ => exact .inl (plaintext.trans there)
      | encrypted found decrypted _ =>
        obtain rfl := Option.some.inj (there.symm.trans found)
        exact .inr decrypted
  · obtain ⟨ok, migrated⟩ := completes reliable r returned
    refine ⟨ok, fun secret value there => ?_⟩
    rcases cases_ there with there | there
    · exact kept secret value there
    · exact migrated secret value there

/-! ## Parts of a run -/

section parts

/-- Broken off, or failed where things fail. -/
def Stopped {α : Type} (mayFail : Bool) (result : Option (Except String α)) : Prop :=
  result = none ∨ mayFail = true ∧ ∃ e, result = some (.error e)

theorem perform_cases {o : Op} {result : Option o.Resp}
    (serves : Serves (tool crypto mayFail) db (perform o) l result db') :
    (l = [] ∧ db' = db ∧ result = none) ∨
      ∃ a r, execute crypto mayFail db o a = some (r, db') ∧ l = [⟨o, r⟩] ∧ (result = none ∨ result = some r) := by
  rcases serves.op_inv with ⟨rfl, rfl, rfl⟩ | ⟨a, r, db₁, rest, executed, last, rfl⟩
  · exact .inl ⟨rfl, rfl, rfl⟩
  · obtain ⟨rfl, rfl, ended⟩ := last.ret_inv
    exact .inr ⟨a, r, executed, rfl, ended⟩

/-- What a statement does whose answer is read by `f`. -/
theorem statement_cases {o : Op} {f : o.Resp → Except String Unit} {e : String → o.Resp} {v : o.Resp}
    {after : Database} (ok : execute crypto mayFail db o .ok = some (v, after)) (value : f v = .ok ())
    (failed : ∀ reason, execute crypto mayFail db o (.failed reason) =
      if mayFail then some (e reason, db) else none) (error : ∀ reason, f (e reason) = .error reason)
    (encrypted : ∀ ciphertext nonce, execute crypto mayFail db o (.encrypted ciphertext nonce) = none)
    (serves : Serves (tool crypto mayFail) db (.op o fun r => .ret (f r)) l result db') :
    db' = db ∧ Stopped mayFail result ∨ db' = after ∧ (result = none ∨ result = some (.ok ())) := by
  rcases serves.op_inv with ⟨-, rfl, rfl⟩ | ⟨a, r, db₁, rest, executed, last, -⟩
  · exact .inl ⟨rfl, .inl rfl⟩
  obtain ⟨-, rfl, ended⟩ := last.ret_inv
  change execute crypto mayFail db o a = some (r, db') at executed
  cases a with
  | ok =>
    rw [ok] at executed
    cases executed
    exact .inr ⟨rfl, ended.imp_right fun eq => by rw [eq, value]⟩
  | failed reason =>
    rw [failed reason] at executed
    obtain ⟨fails, eq⟩ := Option.ite_none_right_eq_some.mp executed
    cases eq
    exact .inl ⟨rfl, ended.imp_right fun eq => ⟨fails, reason, by rw [eq, error]⟩⟩
  | encrypted ciphertext nonce =>
    rw [encrypted] at executed
    cases executed

/-- An error is reported with its context, and nothing else changes. -/
theorem inContext_cases {α : Type} {context : String} {p : Proc (Except String α)}
    {result : Option (Except String α)}
    (serves : Serves (tool crypto mayFail) db (inContext context p) l result db') :
    ∃ first, Serves (tool crypto mayFail) db p l first db' ∧ (result = none ∨
      result = first.map fun r => r.mapError fun _ => context) := by
  rcases serves.bind_inv with ⟨l₁, r, db₁, l₂, first, second, rfl⟩ | ⟨rfl, first⟩
  · obtain ⟨rfl, rfl, ended⟩ := second.ret_inv
    refine ⟨some r, by simpa using first, ?_⟩
    rcases ended with rfl | rfl
    · exact .inl rfl
    · exact .inr rfl
  · exact ⟨none, first, .inl rfl⟩

/-- What a statement that writes does, under its context. -/
theorem write_cases {context : String} {p : Proc (Except String Unit)} {after : Database}
    (executes : ∀ {l r db'}, Serves (tool crypto mayFail) db p l r db' →
      db' = db ∧ Stopped mayFail r ∨ db' = after ∧ (r = none ∨ r = some (.ok ())))
    (serves : Serves (tool crypto mayFail) db (inContext context p) l result db') :
    db' = db ∧ Stopped mayFail result ∨ db' = after ∧ (result = none ∨ result = some (.ok ())) := by
  obtain ⟨first, serves, ended⟩ := inContext_cases serves
  rcases executes serves with ⟨rfl, stopped⟩ | ⟨rfl, fine⟩
  · refine .inl ⟨rfl, ?_⟩
    rcases ended with rfl | rfl
    · exact .inl rfl
    · rcases stopped with rfl | ⟨fails, e, rfl⟩
      · exact .inl rfl
      · exact .inr ⟨fails, context, rfl⟩
  · refine .inr ⟨rfl, ?_⟩
    rcases ended with rfl | rfl
    · exact .inl rfl
    · rcases fine with rfl | rfl
      · exact .inl rfl
      · exact .inr rfl

theorem encryptVerified_cases {message : String → String} {plaintext : String}
    {result : Option (Except String (List UInt8 × List UInt8))}
    (serves : Serves (tool crypto mayFail) db (encryptVerified crypto message plaintext) l result db') :
    db' = db ∧ (∀ x ∈ l, x.1 = .encrypt plaintext) ∧ (Stopped mayFail result ∨
      ∃ ciphertext nonce, crypto.isEncryption plaintext ciphertext nonce = true ∧
        result = some (.ok (ciphertext, nonce))) := by
  have encrypts : ∀ {l r db'}, Serves (tool crypto mayFail) db (perform (.encrypt plaintext)) l r db' →
      db' = db ∧ (∀ x ∈ l, x.1 = .encrypt plaintext) ∧ (Stopped mayFail r ∨ ∃ ciphertext nonce,
        crypto.isEncryption plaintext ciphertext nonce = true ∧ r = some (.ok (ciphertext, nonce))) := by
    intro l r db' serves
    rcases perform_cases serves with ⟨rfl, rfl, rfl⟩ | ⟨a, answer, executed, rfl, ended⟩
    · exact ⟨rfl, by simp, .inl (.inl rfl)⟩
    cases a with
    | ok => cases executed
    | failed reason =>
      obtain ⟨fails, eq⟩ := Option.ite_none_right_eq_some.mp executed
      cases eq
      refine ⟨rfl, by simp, .inl ?_⟩
      rcases ended with rfl | rfl
      · exact .inl rfl
      · exact .inr ⟨fails, reason, rfl⟩
    | encrypted ciphertext nonce =>
      obtain ⟨encryption, eq⟩ := Option.ite_none_right_eq_some.mp executed
      cases eq
      refine ⟨rfl, by simp, ?_⟩
      rcases ended with rfl | rfl
      · exact .inl (.inl rfl)
      · exact .inr ⟨ciphertext, nonce, encryption, rfl⟩
  rcases serves.attempt_cases with ⟨l₁, pair, db₁, l₂, first, second, rfl⟩ | ⟨e, first, ended⟩ | ⟨rfl, first⟩
  · obtain ⟨rfl, only, stopped | ⟨ciphertext, nonce, encryption, eq⟩⟩ := encrypts first
    · rcases stopped with eq | ⟨-, e, eq⟩ <;> cases eq
    · cases eq
      -- what has been encrypted decrypts to it
      simp only [Crypto.decrypt_encryption encryption, if_true] at second
      obtain ⟨rfl, rfl, ended⟩ := second.ret_inv
      refine ⟨rfl, by simpa using only, ?_⟩
      rcases ended with rfl | rfl
      · exact .inl (.inl rfl)
      · exact .inr ⟨ciphertext, nonce, encryption, rfl⟩
  · obtain ⟨rfl, only, stopped | ⟨_, _, -, eq⟩⟩ := encrypts first
    · refine ⟨rfl, only, .inl ?_⟩
      rcases ended with rfl | rfl
      · exact .inl rfl
      · rcases stopped with eq | ⟨fails, -⟩
        · cases eq
        · exact .inr ⟨fails, e, rfl⟩
    · cases eq
  · obtain ⟨rfl, only, -⟩ := encrypts first
    exact ⟨rfl, only, .inl (.inl rfl)⟩

/-- What is encrypted is written, or nothing has happened. -/
theorem encrypted_cases {message : String → String} {plaintext : String}
    {write : List UInt8 × List UInt8 → Proc (Except String Unit)}
    (serves : Serves (tool crypto mayFail) db ((encryptVerified crypto message plaintext).attempt write) l result db') :
    (db' = db ∧ Stopped mayFail result) ∨ ∃ ciphertext nonce l₁ l₂,
      crypto.isEncryption plaintext ciphertext nonce = true ∧ l = l₁ ++ l₂ ∧
        Serves (tool crypto mayFail) db (write (ciphertext, nonce)) l₂ result db' := by
  rcases serves.attempt_cases with ⟨l₁, pair, db₁, l₂, first, second, rfl⟩ | ⟨e, first, ended⟩ | ⟨rfl, first⟩
  · obtain ⟨rfl, -, stopped | ⟨ciphertext, nonce, encryption, eq⟩⟩ := encryptVerified_cases first
    · rcases stopped with eq | ⟨-, e, eq⟩ <;> cases eq
    · cases eq
      exact .inr ⟨ciphertext, nonce, l₁, l₂, encryption, rfl, second⟩
  · obtain ⟨rfl, -, stopped | ⟨_, _, -, eq⟩⟩ := encryptVerified_cases first
    · refine .inl ⟨rfl, ?_⟩
      rcases ended with rfl | rfl
      · exact .inl rfl
      · rcases stopped with eq | ⟨fails, -⟩
        · cases eq
        · exact .inr ⟨fails, e, rfl⟩
    · cases eq
  · obtain ⟨rfl, -⟩ := encryptVerified_cases first
    exact .inl ⟨rfl, .inl rfl⟩

/-- How a part of a run leaves the secrets, of which `own` are its own. -/
structure Goes (crypto : Crypto) (mayFail : Bool) (own : Secret → Prop) (db : Database)
    (result : Option (Except String Unit)) (db' : Database) : Prop where
  advances : ∀ secret, Advances crypto db db' secret
  ids : db'.users.map (·.id) = db.users.map (·.id)
  hasTotpSecret : db'.hasTotpSecret = db.hasTotpSecret
  fine : mayFail = false → ∀ r, result = some r → r = .ok () ∧ ∀ secret, own secret → Migrated crypto db db' secret

namespace Goes

variable {own own' : Secret → Prop}

theorem nothing (fine : mayFail = false → ∀ r, result = some r →
      r = .ok () ∧ ∀ secret, own secret → db.plaintext secret = none) : Goes crypto mayFail own db result db := by
  refine ⟨fun secret => .refl crypto db secret, rfl, rfl, fun reliable r returned => ?_⟩
  obtain ⟨ok, none_⟩ := fine reliable r returned
  refine ⟨ok, fun secret mine value there => ?_⟩
  rw [none_ secret mine] at there
  cases there

theorem stopped (stopped : Stopped mayFail result) : Goes crypto mayFail own db result db :=
  .nothing fun reliable r returned => by
    rcases stopped with rfl | ⟨fails, -⟩
    · cases returned
    · cases reliable.symm.trans fails

theorem idle (ended : result = none ∨ result = some (.ok ()))
    (none_ : ∀ secret, own secret → db.plaintext secret = none) : Goes crypto mayFail own db result db :=
  .nothing fun _ r returned => by
    rcases ended with rfl | rfl
    · cases returned
    · cases returned
      exact ⟨rfl, none_⟩

/-- One part after another. -/
theorem steps (own own' : Secret → Prop) {p : Proc (Except String Unit)} {rest : List (Proc (Except String Unit))}
    (serves : Serves (tool crypto mayFail) db (Prog.steps (p :: rest)) l result db')
    (unbroken : result ≠ some (.ok ()) → Unbroken l)
    (first : ∀ {l r db'}, Serves (tool crypto mayFail) db p l r db' → (r ≠ some (.ok ()) → Unbroken l) →
      Goes crypto mayFail own db r db')
    (second : ∀ {db₁ l₁ l}, Serves (tool crypto mayFail) db p l₁ (some (.ok ())) db₁ →
      Goes crypto mayFail own db (some (.ok ())) db₁ → (result ≠ some (.ok ()) → Unbroken l) →
        Serves (tool crypto mayFail) db₁ (Prog.steps rest) l result db' → Goes crypto mayFail own' db₁ result db') :
    Goes crypto mayFail (fun secret => own secret ∨ own' secret) db result db' := by
  rcases serves.attempt_cases with ⟨l₁, u, db₁, l₂, begun, later, rfl⟩ | ⟨e, begun, ended⟩ | ⟨rfl, begun⟩
  · have goes := first begun fun other => absurd rfl other
    have goes' := second begun goes (fun other m₁ m₂ eq => unbroken other (l₁ ++ m₁) m₂ (by simp [eq])) later
    refine ⟨fun secret => (goes.advances secret).trans (goes'.advances secret), goes'.ids.trans goes.ids,
      goes'.hasTotpSecret.trans goes.hasTotpSecret, fun reliable r returned => ?_⟩
    obtain ⟨ok, migrated'⟩ := goes'.fine reliable r returned
    obtain ⟨-, migrated⟩ := goes.fine reliable _ rfl
    refine ⟨ok, ?_⟩
    rintro secret (mine | mine)
    · exact (goes.advances secret).migrated (migrated secret mine) (goes'.advances secret)
    · exact (goes.advances secret).then_migrated (goes'.advances secret) (migrated' secret mine)
  · have goes := first begun fun _ => unbroken (by rcases ended with rfl | rfl <;> simp)
    refine ⟨goes.advances, goes.ids, goes.hasTotpSecret, fun reliable => ?_⟩
    -- without failures there is no such error
    cases (goes.fine reliable _ rfl).1
  · have goes := first begun fun _ => unbroken (by simp)
    exact ⟨goes.advances, goes.ids, goes.hasTotpSecret, fun _ r returned => by cases returned⟩

theorem mono (goes : Goes crypto mayFail own db result db') (less : ∀ secret, own' secret → own secret) :
    Goes crypto mayFail own' db result db' :=
  ⟨goes.advances, goes.ids, goes.hasTotpSecret, fun reliable r returned =>
    (goes.fine reliable r returned).imp_right fun migrated secret mine => migrated secret (less secret mine)⟩

/-- The last part. -/
theorem last {p : Proc (Except String Unit)}
    (serves : Serves (tool crypto mayFail) db (Prog.steps [p]) l result db')
    (unbroken : result ≠ some (.ok ()) → Unbroken l)
    (first : ∀ {l r db'}, Serves (tool crypto mayFail) db p l r db' → (r ≠ some (.ok ()) → Unbroken l) →
      Goes crypto mayFail own db r db') : Goes crypto mayFail own db result db' := by
  have goes := steps own (fun _ => False) serves unbroken first fun _ _ _ later => by
    obtain ⟨-, rfl, ended⟩ := later.ret_inv
    exact .idle ended fun _ no => no.elim
  exact goes.mono fun _ => .inl

theorem written {after : Database} (update : db' = db ∧ Stopped mayFail result ∨
      db' = after ∧ (result = none ∨ result = some (.ok ())))
    (advances : ∀ secret, Advances crypto db after secret) (ids : after.users.map (·.id) = db.users.map (·.id))
    (hasTotpSecret : after.hasTotpSecret = db.hasTotpSecret)
    (migrated : ∀ secret, own secret → Migrated crypto db after secret) : Goes crypto mayFail own db result db' := by
  rcases update with ⟨rfl, stopped⟩ | ⟨rfl, ended⟩
  · exact .stopped stopped
  · refine ⟨advances, ids, hasTotpSecret, fun _ r returned => ⟨?_, migrated⟩⟩
    rcases ended with rfl | rfl <;> cases returned
    rfl

end Goes

/-! ### The columns -/

@[simp] theorem plaintext_withClientSecret {ciphertext nonce : List UInt8} :
    (db.withClientSecret ciphertext nonce).plaintext secret = db.plaintext secret := by
  cases secret with
  | clientSecret => cases row : db.oidcConfig <;> simp [Database.plaintext, Database.withClientSecret, row]
  | smtpPassword | totpSecret => rfl

theorem decrypted_withClientSecret {ciphertext nonce : List UInt8} {value : String}
    (there : db.plaintext .clientSecret = some value)
    (encryption : crypto.isEncryption value ciphertext nonce = true) :
    (db.withClientSecret ciphertext nonce).decrypted crypto .clientSecret = some value := by
  cases row : db.oidcConfig with
  | none => simp [Database.plaintext, row] at there
  | some row' => simp [Database.decrypted, Database.withClientSecret, row, Crypto.decrypt_encryption encryption]

theorem advances_withClientSecret {ciphertext nonce : List UInt8} {value : String}
    (there : db.plaintext .clientSecret = some value)
    (encryption : crypto.isEncryption value ciphertext nonce = true) :
    Advances crypto db (db.withClientSecret ciphertext nonce) secret := by
  cases secret with
  | clientSecret =>
    exact .encrypted there (decrypted_withClientSecret there encryption)
      (.inl (by rw [plaintext_withClientSecret, there]))
  | smtpPassword | totpSecret => exact .kept plaintext_withClientSecret rfl

/-- A secret that is read is taken as it is, or passed by. -/
theorem readOidcClientSecret_cases {result : Option (Except String (Option String))}
    (serves : Serves (tool crypto mayFail) db readOidcClientSecret l result db') :
    db' = db ∧ (result = none ∨ ∃ secret, result = some (.ok secret) ∧ (mayFail = true ∧ secret = none ∨
      secret = if db.hasClientSecret then db.oidcConfig.bind (·.clientSecret) else none)) := by
  rcases serves.op_inv with ⟨-, rfl, rfl⟩ | ⟨a, r, db₁, rest, executed, last, -⟩
  · exact ⟨rfl, .inl rfl⟩
  cases a with
  | encrypted ciphertext nonce => cases executed
  | failed reason =>
    obtain ⟨fails, eq⟩ := Option.ite_none_right_eq_some.mp executed
    cases eq
    obtain ⟨-, rfl, rfl | rfl⟩ := last.ret_inv
    · exact ⟨rfl, .inl rfl⟩
    · exact ⟨rfl, .inr ⟨none, rfl, .inl ⟨fails, rfl⟩⟩⟩
  | ok =>
    by_cases column : db.hasClientSecret = true
    · simp only [tool, execute, column, if_true] at executed
      cases executed
      obtain ⟨-, rfl, rfl | rfl⟩ := last.ret_inv
      · exact ⟨rfl, .inl rfl⟩
      · refine ⟨rfl, .inr ⟨_, rfl, .inr ?_⟩⟩
        rw [if_pos column]
        cases db'.oidcConfig <;> rfl
    · simp only [tool, execute, column] at executed
      cases executed
      obtain ⟨-, rfl, rfl | rfl⟩ := last.ret_inv
      · exact ⟨rfl, .inl rfl⟩
      · exact ⟨rfl, .inr ⟨none, rfl, .inr (by rw [if_neg column])⟩⟩

theorem goes_unlessEmpty {own : Secret → Prop} {write : String → Proc (Except String Unit)} {found : Option String}
    (serves : Serves (tool crypto mayFail) db (unlessEmpty write found) l result db')
    (skipped : mayFail = false → found.filter (!·.isEmpty) = none → ∀ secret, own secret → db.plaintext secret = none)
    (writes : ∀ {plaintext}, found = some plaintext → plaintext.isEmpty = false →
      Serves (tool crypto mayFail) db (write plaintext) l result db' → Goes crypto mayFail own db result db') :
    Goes crypto mayFail own db result db' := by
  have skips : found.filter (!·.isEmpty) = none → Serves (tool crypto mayFail) db (.ret (.ok ())) l result db' →
      Goes crypto mayFail own db result db' := fun none_ serves => by
    obtain ⟨-, rfl, ended⟩ := serves.ret_inv
    refine .nothing fun reliable r returned => ⟨?_, skipped reliable none_⟩
    rcases ended with rfl | rfl <;> cases returned
    rfl
  cases found with
  | none => exact skips rfl serves
  | some plaintext =>
    simp only [unlessEmpty] at serves
    by_cases empty : plaintext.isEmpty = true
    · rw [if_pos empty] at serves
      exact skips (by simp [Option.filter, empty]) serves
    · rw [if_neg empty] at serves
      exact writes rfl (by simpa using empty) serves

theorem goes_clientSecret (serves : Serves (tool crypto mayFail) db
      (readOidcClientSecret.attempt (unlessEmpty (writeOidcClientSecret crypto))) l result db') :
    Goes crypto mayFail (· = .clientSecret) db result db' := by
  rcases serves.attempt_cases with ⟨l₁, found, db₁, l₂, first, second, rfl⟩ | ⟨e, first, ended⟩ | ⟨rfl, first⟩
  · obtain ⟨rfl, eq | ⟨secret, eq, read⟩⟩ := readOidcClientSecret_cases first
    · cases eq
    · cases eq
      refine goes_unlessEmpty second (fun reliable none_ s mine => ?_) fun {plaintext} there nonempty writing => ?_
      · subst mine
        rcases read with ⟨fails, -⟩ | rfl
        · cases reliable.symm.trans fails
        · rw [Database.plaintext]
          split_ifs at none_ ⊢ <;> simp_all
      · have own : db₁.plaintext .clientSecret = some plaintext := by
          rcases read with ⟨-, rfl⟩ | rfl
          · cases there
          · rw [Database.plaintext]
            split_ifs at there ⊢
            simp_all [Option.filter]
        rcases encrypted_cases writing with ⟨rfl, stopped⟩ | ⟨ciphertext, nonce, _, m₂, encryption, -, written⟩
        · exact .stopped stopped
        refine .written (write_cases (fun serves => statement_cases (o := .updateClientSecret _ _) (f := id)
            (e := .error) (v := .ok ()) rfl rfl (fun _ => rfl) (fun _ => rfl) (fun _ _ => rfl) serves) written)
          (fun secret => advances_withClientSecret own encryption) rfl rfl ?_
        intro s mine value there
        subst mine
        rw [own] at there
        cases there
        exact decrypted_withClientSecret own encryption
  · obtain ⟨-, eq | ⟨secret, eq, -⟩⟩ := readOidcClientSecret_cases first <;> cases eq
  · obtain ⟨rfl, -⟩ := readOidcClientSecret_cases first
    exact .stopped (.inl rfl)

/-! ### The users -/

section users

variable {userId : Uuid} {ciphertext nonce : List UInt8}

theorem lookup_withTotpSecret {other : Uuid} :
    Sql.lookup UserRow.id other (db.withTotpSecret userId ciphertext nonce).users =
      (Sql.lookup UserRow.id other db.users).map fun u => if other = userId then
        { u with totpSecretEncrypted := some ciphertext, totpSecretNonce := some nonce } else u := by
  rw [Database.withTotpSecret, Sql.lookup_apply fun _ _ => rfl]
  cases found : Sql.lookup UserRow.id other db.users with
  | none => rfl
  | some u =>
    obtain ⟨-, rfl⟩ := Sql.lookup_some found
    simp [Sql.Update.onRow]

@[simp] theorem plaintext_withTotpSecret :
    (db.withTotpSecret userId ciphertext nonce).plaintext secret = db.plaintext secret := by
  cases secret with
  | clientSecret | smtpPassword => rfl
  | totpSecret other =>
    have columns : (db.withTotpSecret userId ciphertext nonce).hasTotpSecret = db.hasTotpSecret := rfl
    rw [Database.plaintext, Database.plaintext, lookup_withTotpSecret, columns]
    cases Sql.lookup UserRow.id other db.users with
    | none => rfl
    | some u => by_cases same : other = userId <;> simp [same]

theorem ids_withTotpSecret : (db.withTotpSecret userId ciphertext nonce).users.map (·.id) = db.users.map (·.id) := by
  rw [Database.withTotpSecret, Sql.Update.apply, List.map_map]
  exact List.map_congr_left fun u _ => Sql.Update.Keeps.onRow (fun _ _ => rfl) u

theorem decrypted_withTotpSecret {value : String} (there : db.plaintext (.totpSecret userId) = some value)
    (encryption : crypto.isEncryption value ciphertext nonce = true) :
    (db.withTotpSecret userId ciphertext nonce).decrypted crypto (.totpSecret userId) = some value := by
  cases found : Sql.lookup UserRow.id userId db.users with
  | none => simp [Database.plaintext, found] at there
  | some u => simp [Database.decrypted, lookup_withTotpSecret, found, Crypto.decrypt_encryption encryption]

theorem advances_withTotpSecret {value : String} (there : db.plaintext (.totpSecret userId) = some value)
    (encryption : crypto.isEncryption value ciphertext nonce = true) :
    Advances crypto db (db.withTotpSecret userId ciphertext nonce) secret := by
  by_cases own : secret = .totpSecret userId
  · subst own
    exact .encrypted there (decrypted_withTotpSecret there encryption)
      (.inl (by rw [plaintext_withTotpSecret, there]))
  · refine .kept plaintext_withTotpSecret ?_
    cases secret with
    | clientSecret | smtpPassword => rfl
    | totpSecret other =>
      have ne : other ≠ userId := fun same => own (same ▸ rfl)
      simp [Database.decrypted, lookup_withTotpSecret, ne]

theorem goes_totpSecret {user : Uuid × String} (there : db.plaintext (.totpSecret user.1) = some user.2)
    (serves : Serves (tool crypto mayFail) db (migrateTotpSecret crypto user) l result db') :
    Goes crypto mayFail (· = .totpSecret user.1) db result db' ∧
      ∀ secret, db'.plaintext secret = db.plaintext secret := by
  rcases encrypted_cases serves with ⟨rfl, stopped⟩ | ⟨ciphertext, nonce, _, m₂, encryption, -, written⟩
  · exact ⟨.stopped stopped, fun _ => rfl⟩
  have update : db' = db ∧ Stopped mayFail result ∨
      db' = db.withTotpSecret user.1 ciphertext nonce ∧ (result = none ∨ result = some (.ok ())) :=
    write_cases (fun serves => statement_cases (o := .updateTotpSecret ciphertext nonce user.1) (f := id)
      (e := .error) (v := .ok ()) rfl rfl (fun _ => rfl) (fun _ => rfl) (fun _ _ => rfl) serves) written
  refine ⟨.written update (fun _ => advances_withTotpSecret there encryption) ids_withTotpSecret rfl ?_, ?_⟩
  · intro s mine value there'
    subst mine
    rw [there] at there'
    cases there'
    exact decrypted_withTotpSecret there encryption
  · rcases update with ⟨rfl, -⟩ | ⟨rfl, -⟩
    · exact fun _ => rfl
    · exact fun _ => plaintext_withTotpSecret

/-- The users that have been read, one after the other. -/
theorem goes_users {users : List (Uuid × String)}
    (there : ∀ user ∈ users, db.plaintext (.totpSecret user.1) = some user.2)
    (unbroken : result ≠ some (.ok ()) → Unbroken l)
    (serves : Serves (tool crypto mayFail) db (Prog.steps (users.map (migrateTotpSecret crypto))) l result db') :
    Goes crypto mayFail (fun secret => ∃ user ∈ users, secret = .totpSecret user.1) db result db' := by
  induction users generalizing db l result db' with
  | nil =>
    obtain ⟨-, rfl, ended⟩ := serves.ret_inv
    exact .idle ended fun _ ⟨_, mem, _⟩ => by cases mem
  | cons user users ih =>
    refine (Goes.steps (· = .totpSecret user.1)
      (fun secret => ∃ user ∈ users, secret = .totpSecret user.1) serves unbroken
      (fun serves _ => (goes_totpSecret (there user (by simp)) serves).1)
      fun first _ unbroken later => ih (fun other mem => ?_) unbroken later).mono ?_
    · rw [(goes_totpSecret (there user (by simp)) first).2]
      exact there other (by simp [mem])
    · rintro secret ⟨other, mem, eq⟩
      rcases List.mem_cons.mp mem with rfl | later
      · exact .inl eq
      · exact .inr ⟨other, later, eq⟩

/-- The users that are read, and no others, have a secret. -/
theorem mem_selected (column : db.hasTotpSecret = true) (keys : (db.users.map (·.id)).Nodup) {user : Uuid × String} :
    user ∈ db.users.filterMap (fun u => u.totpSecret.map (u.id, ·)) ↔
      db.plaintext (.totpSecret user.1) = some user.2 := by
  rw [Database.plaintext, if_pos column, List.mem_filterMap]
  constructor
  · rintro ⟨u, mem, eq⟩
    obtain ⟨value, there, rfl⟩ := Option.map_eq_some_iff.mp eq
    rw [Sql.lookup_of_mem keys mem]
    exact there
  · intro there
    obtain ⟨u, found, there⟩ := Option.bind_eq_some_iff.mp there
    obtain ⟨mem, same⟩ := Sql.lookup_some found
    exact ⟨u, mem, by rw [there, Option.map_some, same]⟩

theorem selectTotpSecrets_cases {result : Option (Except String (List (Uuid × String)))}
    (column : db.hasTotpSecret = true) {context : String}
    (serves : Serves (tool crypto mayFail) db (inContext context (perform .selectTotpSecrets)) l result db') :
    db' = db ∧ (Stopped mayFail result ∨
      result = some (.ok (db.users.filterMap fun u => u.totpSecret.map (u.id, ·)))) := by
  obtain ⟨first, serves, ended⟩ := inContext_cases serves
  rcases perform_cases serves with ⟨-, rfl, rfl⟩ | ⟨a, r, executed, -, ended'⟩
  · exact ⟨rfl, .inl (.inl (by rcases ended with eq | eq <;> exact eq))⟩
  cases a with
  | encrypted ciphertext nonce => cases executed
  | failed reason =>
    obtain ⟨fails, eq⟩ := Option.ite_none_right_eq_some.mp executed
    cases eq
    refine ⟨rfl, .inl ?_⟩
    rcases ended with rfl | rfl
    · exact .inl rfl
    · rcases ended' with rfl | rfl
      · exact .inl rfl
      · exact .inr ⟨fails, context, rfl⟩
  | ok =>
    simp only [execute, column, if_true] at executed
    cases executed
    refine ⟨rfl, ?_⟩
    rcases ended with rfl | rfl
    · exact .inl (.inl rfl)
    · rcases ended' with rfl | rfl
      · exact .inl (.inl rfl)
      · exact .inr rfl

theorem goes_totpSecrets (column : db.hasTotpSecret = true) (keys : (db.users.map (·.id)).Nodup)
    (serves : Serves (tool crypto mayFail) db (migrateTotpSecrets crypto) l result db')
    (unbroken : result ≠ some (.ok ()) → Unbroken l) :
    Goes crypto mayFail (fun secret => ∃ userId, secret = .totpSecret userId) db result db' := by
  rcases serves.attempt_cases with ⟨l₁, users, db₁, l₂, first, second, rfl⟩ | ⟨e, first, ended⟩ | ⟨rfl, first⟩
  · obtain ⟨rfl, stopped | eq⟩ := selectTotpSecrets_cases column first
    · rcases stopped with eq | ⟨-, e, eq⟩ <;> cases eq
    · cases eq
      have goes := goes_users (fun user mem => (mem_selected column keys).mp mem)
        (fun other m₁ m₂ eq => unbroken other (l₁ ++ m₁) m₂ (by simp [eq])) second
      refine ⟨goes.advances, goes.ids, goes.hasTotpSecret, fun reliable r returned => ?_⟩
      obtain ⟨ok, migrated⟩ := goes.fine reliable r returned
      refine ⟨ok, ?_⟩
      rintro _ ⟨userId, rfl⟩ value there
      exact migrated _ ⟨(userId, value), (mem_selected column keys).mpr there, rfl⟩ value there
  · obtain ⟨rfl, stopped | eq⟩ := selectTotpSecrets_cases column first
    · rcases ended with rfl | rfl
      · exact .stopped (.inl rfl)
      · rcases stopped with eq | ⟨fails, -⟩
        · cases eq
        · exact .stopped (.inr ⟨fails, e, rfl⟩)
    · cases eq
  · obtain ⟨rfl, -⟩ := selectTotpSecrets_cases column first
    exact .stopped (.inl rfl)

end users

/-! ### The password -/

/-- The two rows, in place of the old one. -/
def movedPassword (db : Database) (ciphertext nonce : List UInt8) : Database :=
  { db with systemConfig := Config.delete "smtp_password" db.systemConfig ++
      [("smtp_password_encrypted", Hex.encode ciphertext)] ++ [("smtp_password_nonce", Hex.encode nonce)] }

theorem decrypted_movedPassword {ciphertext nonce : List UInt8} {value : String}
    (absent : Config.value "smtp_password_encrypted" db.systemConfig = none ∧
      Config.value "smtp_password_nonce" db.systemConfig = none)
    (encryption : crypto.isEncryption value ciphertext nonce = true) :
    (movedPassword db ciphertext nonce).decrypted crypto .smtpPassword = some value := by
  simp only [Database.decrypted, movedPassword, Config.value_append, Config.value_delete, absent.1, absent.2]
  simp [Hex.decode_encode, Crypto.decrypt_encryption encryption]

theorem advances_movedPassword {ciphertext nonce : List UInt8} {value : String}
    (absent : Config.value "smtp_password_encrypted" db.systemConfig = none ∧
      Config.value "smtp_password_nonce" db.systemConfig = none)
    (there : db.plaintext .smtpPassword = some value)
    (encryption : crypto.isEncryption value ciphertext nonce = true) :
    Advances crypto db (movedPassword db ciphertext nonce) secret := by
  cases secret with
  | clientSecret | totpSecret => exact .kept rfl rfl
  | smtpPassword =>
    refine .encrypted there (decrypted_movedPassword absent encryption) (.inr ?_)
    simp only [Database.plaintext, movedPassword, Config.value_append, Config.value_delete]
    simp

/-- The password is moved, or nothing has happened, or the move is broken off. -/
theorem moves_cases {ciphertext nonce : List UInt8}
    (absent : Config.value "smtp_password_encrypted" db.systemConfig = none ∧
      Config.value "smtp_password_nonce" db.systemConfig = none)
    (serves : Serves (tool crypto mayFail) db (Prog.steps [perform .deleteSmtpPassword,
      perform (.insertConfigKey "smtp_password_encrypted" ciphertext),
      perform (.insertConfigKey "smtp_password_nonce" nonce)]) l result db') :
    (db' = db ∧ Stopped mayFail result ∨
      db' = movedPassword db ciphertext nonce ∧ (result = none ∨ result = some (.ok ()))) ∨
    (result ≠ some (.ok ()) ∧ ¬ Unbroken l) := by
  have broken : ∀ {rest}, (∀ n, ⟨.insertConfigKey "smtp_password_nonce" n, .ok ()⟩ ∉ rest) →
      ¬ Unbroken (⟨Op.deleteSmtpPassword, .ok ()⟩ :: rest) := fun none_ unbroken => by
    obtain ⟨n, mem⟩ := unbroken [] _ rfl
    exact none_ n mem
  rcases serves.op_inv with ⟨-, rfl, rfl⟩ | ⟨a, r, db₁, rest, executed, later, rfl⟩
  · exact .inl (.inl ⟨rfl, .inl rfl⟩)
  cases a with
  | encrypted => cases executed
  | failed reason =>
    obtain ⟨fails, eq⟩ := Option.ite_none_right_eq_some.mp executed
    cases eq
    obtain ⟨-, rfl, ended⟩ := later.ret_inv
    exact .inl (.inl ⟨rfl, ended.imp_right fun eq => ⟨fails, reason, eq⟩⟩)
  | ok =>
    cases executed
    rcases later.op_inv with ⟨rfl, rfl, rfl⟩ | ⟨a, r, db₂, rest, executed, later, rfl⟩
    · exact .inr ⟨by simp, broken (by simp)⟩
    cases a with
    | encrypted => cases executed
    | failed reason =>
      obtain ⟨-, eq⟩ := Option.ite_none_right_eq_some.mp executed
      cases eq
      obtain ⟨rfl, rfl, ended⟩ := later.ret_inv
      exact .inr ⟨by rcases ended with rfl | rfl <;> simp, broken (by simp)⟩
    | ok =>
      have first : Config.value "smtp_password_encrypted" (Config.delete "smtp_password" db.systemConfig) = none := by
        simp [absent.1]
      simp only [tool, execute, Config.insert_absent first] at executed
      cases executed
      rcases later.op_inv with ⟨rfl, rfl, rfl⟩ | ⟨a, r, db₃, rest, executed, later, rfl⟩
      · exact .inr ⟨by simp, broken (by simp)⟩
      cases a with
      | encrypted => cases executed
      | failed reason =>
        obtain ⟨-, eq⟩ := Option.ite_none_right_eq_some.mp executed
        cases eq
        obtain ⟨rfl, rfl, ended⟩ := later.ret_inv
        exact .inr ⟨by rcases ended with rfl | rfl <;> simp, broken (by simp)⟩
      | ok =>
        have second : Config.value "smtp_password_nonce" (Config.delete "smtp_password" db.systemConfig ++
            [("smtp_password_encrypted", Hex.encode ciphertext)]) = none := by
          simp [absent.2]
        simp only [tool, execute, Config.insert_absent second] at executed
        cases executed
        obtain ⟨-, rfl, ended⟩ := later.ret_inv
        exact .inl (.inr ⟨rfl, ended⟩)

theorem goes_smtpPassword
    (only : db.plaintext .smtpPassword ≠ none → Config.value "smtp_password_encrypted" db.systemConfig = none ∧
      Config.value "smtp_password_nonce" db.systemConfig = none)
    (serves : Serves (tool crypto mayFail) db
      ((perform .selectSmtpPassword).attempt (unlessEmpty (writeSmtpPassword crypto))) l result db')
    (unbroken : result ≠ some (.ok ()) → Unbroken l) :
    Goes crypto mayFail (· = .smtpPassword) db result db' := by
  have reads : ∀ {l r db'}, Serves (tool crypto mayFail) db (perform .selectSmtpPassword) l r db' →
      db' = db ∧ (Stopped mayFail r ∨ r = some (.ok (Config.value "smtp_password" db.systemConfig))) := by
    intro l r db' serves
    rcases perform_cases serves with ⟨-, rfl, rfl⟩ | ⟨a, answer, executed, -, ended⟩
    · exact ⟨rfl, .inl (.inl rfl)⟩
    cases a with
    | encrypted => cases executed
    | failed reason =>
      obtain ⟨fails, eq⟩ := Option.ite_none_right_eq_some.mp executed
      cases eq
      exact ⟨rfl, .inl (ended.imp_right fun eq => ⟨fails, reason, eq⟩)⟩
    | ok =>
      cases executed
      exact ⟨rfl, ended.imp .inl id⟩
  rcases serves.attempt_cases with ⟨l₁, found, db₁, l₂, first, second, rfl⟩ | ⟨e, first, ended⟩ | ⟨rfl, first⟩
  · obtain ⟨rfl, stopped | eq⟩ := reads first
    · rcases stopped with eq | ⟨-, e, eq⟩ <;> cases eq
    · cases eq
      refine goes_unlessEmpty second (fun _ none_ s mine => mine ▸ none_) fun {plaintext} there nonempty writing => ?_
      have own : db₁.plaintext .smtpPassword = some plaintext := by
        simp [Database.plaintext, there, Option.filter, nonempty]
      have absent := only (by simp [own])
      rcases encrypted_cases writing with ⟨rfl, stopped⟩ | ⟨ciphertext, nonce, m₁, m₂, encryption, rfl, moving⟩
      · exact .stopped stopped
      rcases moves_cases absent moving with update | ⟨other, broken⟩
      · refine .written update (fun _ => advances_movedPassword absent own encryption) rfl rfl ?_
        intro s mine value there
        subst mine
        rw [own] at there
        cases there
        exact decrypted_movedPassword absent encryption
      · exact absurd (fun n₁ n₂ eq => unbroken other (l₁ ++ m₁ ++ n₁) n₂ (by simp [eq])) broken
  · obtain ⟨rfl, stopped | eq⟩ := reads first
    · refine .stopped ?_
      rcases ended with rfl | rfl
      · exact .inl rfl
      · rcases stopped with eq | ⟨fails, -⟩
        · cases eq
        · exact .inr ⟨fails, e, rfl⟩
    · cases eq
  · obtain ⟨rfl, -⟩ := reads first
    exact .stopped (.inl rfl)

/-! ### All of them -/

/-- The operations that write to `system_config`. -/
def Op.configures : Op → Bool
  | .deleteSmtpPassword | .insertConfigKey _ _ => true
  | _ => false

abbrev Aside {α : Type} (p : Proc α) : Prop :=
  p.Within (fun o => o.configures = false) (fun _ => False) (fun _ => False)

theorem config_kept {α : Type} {p : Proc α} {result : Option α} (aside : Aside p)
    (serves : Serves (tool crypto mayFail) db p l result db') : db'.systemConfig = db.systemConfig := by
  refine serves.within (I := fun d => d.systemConfig = db.systemConfig) aside ?_ rfl
  intro d o a r d' other executed same
  change execute crypto mayFail d o a = some (r, d') at executed
  unfold execute at executed
  split at executed <;> grind [Op.configures]

theorem clientSecret_aside : Aside (readOidcClientSecret.attempt (unlessEmpty (writeOidcClientSecret crypto))) := by
  refine .attempt (.op rfl fun r => ?_) fun found => ?_
  · cases r with
    | ok row => exact .ret _
    | error e => exact .ret _
  · cases found with
    | none => exact .ret _
    | some plaintext =>
      refine .ite (.ret _) (.attempt (.attempt (.op rfl fun _ => .ret _) fun pair => ?_) fun pair => ?_)
      · dsimp only
        split
        · exact .ret _
        · exact .ite (.ret _) (.ret _)
      · exact .op rfl fun _ => .ret _

theorem goes_statement {context : String} {o : Op} {f : o.Resp → Except String Unit} {e : String → o.Resp}
    {v : o.Resp} (ok : execute crypto mayFail db o .ok = some (v, db)) (value : f v = .ok ())
    (failed : ∀ reason, execute crypto mayFail db o (.failed reason) =
      if mayFail then some (e reason, db) else none) (error : ∀ reason, f (e reason) = .error reason)
    (encrypted : ∀ ciphertext nonce, execute crypto mayFail db o (.encrypted ciphertext nonce) = none)
    (serves : Serves (tool crypto mayFail) db (inContext context (.op o fun r => .ret (f r))) l result db') :
    db' = db ∧ Goes crypto mayFail (fun _ => False) db result db' := by
  rcases write_cases (statement_cases ok value failed error encrypted) serves with ⟨rfl, stopped⟩ | ⟨rfl, ended⟩
  · exact ⟨rfl, .stopped stopped⟩
  · exact ⟨rfl, .idle ended fun _ no => no.elim⟩

/-- A whole run. -/
theorem goes_main (keys : (db.users.map (·.id)).Nodup) (ready : Ready crypto db l)
    (serves : Serves (tool crypto mayFail) db (main crypto) l result db') :
    Goes crypto mayFail (fun _ => True) db result db' := by
  have key : ∀ {db context l r db'}, Serves (tool crypto mayFail) db (inContext context (perform .loadOrCreateKey)) l r db' →
      db' = db ∧ Goes crypto mayFail (fun _ => False) db r db' := fun serves =>
    goes_statement (o := .loadOrCreateKey) (f := id) (e := .error) (v := .ok ()) rfl rfl (fun _ => rfl) (fun _ => rfl)
      (fun _ _ => rfl) serves
  have url : ∀ {db context l r db'}, Serves (tool crypto mayFail) db (inContext context (perform .databaseUrl)) l r db' →
      db' = db ∧ Goes crypto mayFail (fun _ => False) db r db' := fun serves =>
    goes_statement (o := .databaseUrl) (f := id) (e := .error) (v := .ok ()) rfl rfl (fun _ => rfl) (fun _ => rfl)
      (fun _ _ => rfl) serves
  have connect : ∀ {db context l r db'}, Serves (tool crypto mayFail) db (inContext context (perform .connect)) l r db' →
      db' = db ∧ Goes crypto mayFail (fun _ => False) db r db' := fun serves =>
    goes_statement (o := .connect) (f := id) (e := .error) (v := .ok ()) rfl rfl (fun _ => rfl) (fun _ => rfl)
      (fun _ _ => rfl) serves
  have all : ∀ secret : Secret, True → False ∨ False ∨ False ∨ secret = .clientSecret ∨
      secret = .smtpPassword ∨ ∃ userId, secret = .totpSecret userId := fun secret _ => by cases secret <;> simp
  refine (Goes.steps _ _ serves (fun _ => ready.unbroken) (fun serves _ => (key serves).2) fun first _ unbroken₁ rest₁ => ?_).mono all
  obtain ⟨rfl, -⟩ := key first
  refine Goes.steps _ _ rest₁ unbroken₁ (fun serves _ => (url serves).2) fun first _ unbroken₂ rest₂ => ?_
  obtain ⟨rfl, -⟩ := url first
  refine Goes.steps _ _ rest₂ unbroken₂ (fun serves _ => (connect serves).2) fun first _ unbroken₃ rest₃ => ?_
  obtain ⟨rfl, -⟩ := connect first
  refine Goes.steps _ _ rest₃ unbroken₃ (fun serves _ => goes_clientSecret serves) fun first goes unbroken₄ rest₄ => ?_
  have config := config_kept clientSecret_aside first
  refine Goes.steps _ _ rest₄ unbroken₄ (goes_smtpPassword ?_) fun _ goes' unbroken₅ rest₅ => ?_
  · rw [Database.plaintext, config]
    exact ready.only
  · refine Goes.last rest₅ unbroken₅ (goes_totpSecrets ?_ ?_)
    · rw [goes'.hasTotpSecret, goes.hasTotpSecret, ready.hasTotpSecret]
    · rw [goes'.ids, goes.ids]
      exact keys

end parts

/-! ## Runs and changes -/

theorem ids_saved (db : Database) (ciphertext nonce : List UInt8) (secret : Secret) :
    (db.saved ciphertext nonce secret).users.map (·.id) = db.users.map (·.id) := by
  cases secret with
  | clientSecret => rfl
  | smtpPassword =>
    simp only [Database.saved]
    split <;> rfl
  | totpSecret userId => exact ids_withTotpSecret

namespace Small

/-- Three plaintexts, told apart by the length and the first byte of the ciphertext. -/
def cipher : Crypto where
  decrypt ciphertext _ :=
    if ciphertext.length = 18 then some "pw" else if ciphertext.head? = some 1 then some "old" else some "new"

def nonce : List UInt8 := List.replicate 12 0

/-- A client secret in its old column, and nothing else. -/
def columns : Database where
  oidcConfig := some ⟨some "old", none, none⟩
  systemConfig := []
  users := []
  hasClientSecret := true
  hasTotpSecret := true

/-- A password in its old row, and nothing else. -/
def rows : Database := { columns with oidcConfig := some ⟨none, none, none⟩, systemConfig := [("smtp_password", "pw")] }

/-- What a run exchanges that finds the secret. -/
def moves : List (Exchange Op Op.Resp) :=
  [⟨.loadOrCreateKey, .ok ()⟩, ⟨.databaseUrl, .ok ()⟩, ⟨.connect, .ok ()⟩, ⟨.selectClientSecret, .ok (some (some "old"))⟩,
    ⟨.encrypt "old", .ok (List.replicate 19 1, nonce)⟩, ⟨.updateClientSecret (List.replicate 19 1) nonce, .ok ()⟩,
    ⟨.selectSmtpPassword, .ok none⟩, ⟨.selectTotpSecrets, .ok []⟩]

/-- What a run has exchanged that is broken off when the old row is gone. -/
def deletes : List (Exchange Op Op.Resp) :=
  [⟨.loadOrCreateKey, .ok ()⟩, ⟨.databaseUrl, .ok ()⟩, ⟨.connect, .ok ()⟩, ⟨.selectClientSecret, .ok (some none)⟩,
    ⟨.selectSmtpPassword, .ok (some "pw")⟩, ⟨.encrypt "pw", .ok (List.replicate 18 1, nonce)⟩,
    ⟨.deleteSmtpPassword, .ok ()⟩]

theorem moves_serves {db : Database} (secret : db.oidcConfig.map (·.clientSecret) = some (some "old"))
    (others : db.systemConfig = [] ∧ db.users = []) (old : db.hasClientSecret = true ∧ db.hasTotpSecret = true) :
    Serves (tool cipher false) db (main cipher) moves (some (.ok ()))
      (db.withClientSecret (List.replicate 19 1) nonce) := by
  obtain ⟨oidcConfig, systemConfig, users, hasClientSecret, hasTotpSecret⟩ := db
  obtain ⟨rfl, rfl⟩ := others
  obtain ⟨rfl, rfl⟩ := old
  dsimp only at secret
  obtain ⟨row, rfl, there⟩ := Option.map_eq_some_iff.mp secret
  obtain ⟨clientSecret, encrypted, nonce'⟩ := row
  dsimp only at there
  subst there
  exact .op (a := Answer.ok) rfl (.op (a := Answer.ok) rfl (.op (a := Answer.ok) rfl (.op (a := Answer.ok) rfl
    (.op (a := Answer.encrypted (List.replicate 19 1) nonce) rfl (.op (a := Answer.ok) rfl (.op (a := Answer.ok) rfl
      (.op (a := Answer.ok) rfl .ret)))))))

theorem deletes_serves : Serves (tool cipher true) rows (main cipher) deletes none { rows with systemConfig := [] } :=
  .op (a := Answer.ok) rfl (.op (a := Answer.ok) rfl (.op (a := Answer.ok) rfl (.op (a := Answer.ok) rfl
    (.op (a := Answer.ok) rfl (.op (a := Answer.encrypted (List.replicate 18 1) nonce) rfl
      (.op (a := Answer.ok) rfl .cut))))))

end Small

/-- A client secret that has been changed is overwritten with the old one. -/
theorem change_reverted : ¬ CrashSafe Small.cipher false (some (.ok ()))
    (Small.columns.saved (List.replicate 19 2) Small.nonce .clientSecret)
    ((Small.columns.saved (List.replicate 19 2) Small.nonce .clientSecret).withClientSecret (List.replicate 19 1)
      Small.nonce) ∧
    Serves (tool Small.cipher false) (Small.columns.saved (List.replicate 19 2) Small.nonce .clientSecret)
      (main Small.cipher) Small.moves (some (.ok ()))
      ((Small.columns.saved (List.replicate 19 2) Small.nonce .clientSecret).withClientSecret (List.replicate 19 1)
        Small.nonce) := by
  refine ⟨fun safe => ?_, Small.moves_serves rfl ⟨rfl, rfl⟩ ⟨rfl, rfl⟩⟩
  exact absurd (safe.kept .clientSecret "new" (by decide +kernel)) (by decide +kernel)

end PatchManager.Migrate
