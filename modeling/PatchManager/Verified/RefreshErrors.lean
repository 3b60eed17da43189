import PatchManager.Auth.Session
import PatchManager.Conc.Serve
import PatchManager.Net.IpAddr
import PatchManager.Text.Str

/-! # Errors of a refresh

`rotate` revokes the token it was given and then stores the one that replaces it, in two
statements that no transaction holds together.  What it stores of the client is the text of a
header, which the database takes for an address only at the second of them.

Main results:

* `rotate_keeps_iff`: an error has left the tokens as they were, unless the token was good, has been
  revoked, and its successor could not be stored.
* `unknown_loses`: a client behind a proxy that does not give its address.
-/

namespace PatchManager.Auth

open PatchManager.Conc

section

variable {cfg : AuthSettings} {isInet : String → Bool} {w w' : World} {l : List (Exchange Op Op.Resp)}
  {raw : String} {client : Client} {userId : Uuid}

/-! ## The client of a request -/

def userAgent (headers : HeaderMap) : Option String := do
  let value ← headers.get "user-agent"
  let text ← headerText value
  return String.ofList text

/-- Whatever stands before the first comma. -/
def remoteIp (headers : HeaderMap) : Option String := do
  let value ← headers.get "x-forwarded-for"
  let text ← headerText value
  return String.ofList (Str.trim (Str.splitNext ',' text))

/-- What `refresh_handler` hands on. -/
def clientOf (headers : HeaderMap) : Client := ⟨userAgent headers, remoteIp headers⟩

/-! ## The type of the column -/

def invalidInet (text : String) : String := "invalid input syntax for type inet: \"" ++ text ++ "\""

/-- `$5::inet`: the `INSERT` fails on a text that is not an address, which `isInet` decides. -/
def executeCast (sha256 : String → String) (isInet : String → Bool) (w : World) :
    (o : Op) → Answer → Option (o.Resp × World)
  | .insertToken userId hash expiresAt client, a =>
    if client.ipAddress.all isInet then execute sha256 w (.insertToken userId hash expiresAt client) a
    else some (.error (invalidInet (client.ipAddress.getD "")), w)
  | o, a => execute sha256 w o a

/-- The service over a database that checks the address. -/
def casting (cfg : AuthSettings) (isInet : String → Bool) : Service World Op Op.Resp Fn :=
  { accounts cfg with execute := executeCast cfg.sha256 isInet }

/-! ## How a rotation ends -/

/-- The token is known, live and not expired. -/
def Accepted (cfg : AuthSettings) (w : World) (raw : String) : Prop :=
  ∃ t, w.token (cfg.sha256 raw) = some t ∧ t.revoked = false ∧ ¬ t.expiresAt < w.now

def LookupFails (l : List (Exchange Op Op.Resp)) : Prop :=
  ∃ hash reason, ⟨.selectToken hash, .error reason⟩ ∈ l

def RevocationFails (l : List (Exchange Op Op.Resp)) : Prop :=
  ∃ s reason, ⟨.updateTokens s, .error reason⟩ ∈ l

def InsertFails (l : List (Exchange Op Op.Resp)) : Prop :=
  ∃ userId hash expiresAt client reason, ⟨.insertToken userId hash expiresAt client, .error reason⟩ ∈ l

/-- The row of the token is as it was when the call ends. -/
def Kept (cfg : AuthSettings) (w : World) (raw : String) (l : List (Exchange Op Op.Resp)) : Prop :=
  ¬ Accepted cfg w raw ∨ LookupFails l ∨ RevocationFails l

/-- The successor can be stored. -/
def Storable (isInet : String → Bool) (client : Client) (l : List (Exchange Op Op.Resp)) : Prop :=
  client.ipAddress.all isInet = true ∧ ¬ InsertFails l

inductive Ends (cfg : AuthSettings) (isInet : String → Bool) (w : World) (raw : String) (client : Client)
    (l : List (Exchange Op Op.Resp)) : Except RefreshError (String × Uuid) → World → Prop
  | refused {e : RefreshError} (kept : Kept cfg w raw l) : Ends cfg isInet w raw client l (.error e) w
  | rotated {value : String × Uuid} {w' : World} (storable : Storable isInet client l) :
    Ends cfg isInet w raw client l (.ok value) w'
  | lost {e : RefreshError} {w' : World} (revoked : ¬ Kept cfg w raw l) (unstorable : ¬ Storable isInet client l)
    (tokens : w'.tokens ≠ w.tokens) : Ends cfg isInet w raw client l (.error e) w'

theorem executeCast_invalid (sha256 : String → String) (a : Answer) {hash : String} {expiresAt : Time}
    (invalid : client.ipAddress.all isInet = false) :
    executeCast sha256 isInet w (.insertToken userId hash expiresAt client) a =
      some (.error (invalidInet (client.ipAddress.getD "")), w) := by
  simp [executeCast, invalid]

/-- An `INSERT` that fails leaves everything as it is. -/
theorem executeCast_error {hash reason : String} {expiresAt : Time} {a : Answer}
    (failed : executeCast cfg.sha256 isInet w (.insertToken userId hash expiresAt client) a = some (.error reason, w')) :
    w' = w := by
  simp only [executeCast] at failed
  split at failed
  · cases a with
    | failed =>
      cases failed
      rfl
    | id =>
      obtain ⟨-, eq⟩ := Option.ite_none_right_eq_some.mp failed
      cases eq
    | ok | text | truth => cases failed
  · cases failed
    rfl

theorem storable_of_ok {hash : String} {expiresAt : Time} {a : Answer}
    (stored : executeCast cfg.sha256 isInet w (.insertToken userId hash expiresAt client) a = some (.ok (), w')) :
    client.ipAddress.all isInet = true := by
  by_contra invalid
  rw [executeCast_invalid _ _ (by simpa using invalid)] at stored
  cases stored

/-- What has been issued is stored; where it is not, nothing has changed. -/
theorem issue_ends {r : Except RefreshError String}
    (serves : Serves (casting cfg isInet) w (issue cfg userId client) l (some r) w') :
    ¬ LookupFails l ∧ ¬ RevocationFails l ∧
    ((r.isOk = true ∧ Storable isInet client l) ∨
      ((∃ e, r = .error e) ∧ w'.tokens = w.tokens ∧ ¬ Storable isInet client l)) := by
  obtain ⟨a, token, w₁, _, generated, fresh, rfl⟩ := serves.op_returned
  obtain ⟨_, now, w₂, _, clock, timed, rfl⟩ := fresh.op_returned
  obtain ⟨b, inserted, w₃, _, stored, last, rfl⟩ := timed.op_returned
  have tokens : w₂.tokens = w.tokens := by
    cases clock
    cases a with
    | text s =>
      obtain ⟨-, eq⟩ := Option.ite_none_left_eq_some.mp generated
      cases eq
      rfl
    | ok | failed | truth | id => cases generated
  cases inserted with
  | ok =>
    obtain ⟨rfl, rfl, rfl⟩ := last.ret_returned
    exact ⟨by simp [LookupFails], by simp [RevocationFails],
      .inl ⟨rfl, storable_of_ok stored, by simp [InsertFails]⟩⟩
  | error reason =>
    obtain ⟨rfl, rfl, rfl⟩ := last.ret_returned
    refine ⟨by simp [LookupFails], by simp [RevocationFails], .inr ⟨⟨_, rfl⟩, ?_, fun storable => ?_⟩⟩
    · rw [executeCast_error stored, tokens]
    · exact storable.2 ⟨_, _, _, _, reason, .tail _ (.tail _ (.head _))⟩

/-- The `UPDATE` of a live token is seen in the table. -/
theorem revoked_ne {t : RefreshToken} (found : w.token (cfg.sha256 raw) = some t) (live : t.revoked = false) :
    ((TokenUpdate.revokeById t.id).update w.now).apply w.tokens ≠ w.tokens := by
  intro same
  obtain ⟨mem, -⟩ := Sql.lookup_some found
  have onRow := List.map_inj_left.mp (same.trans (List.map_id _).symm) t mem
  rw [Sql.Update.onRow_eq_assign (by simp [TokenUpdate.update, TokenUpdate.cond])] at onRow
  have revoked := congrArg RefreshToken.revoked onRow
  simp [TokenUpdate.update, live] at revoked

theorem Accepted.revoked {t : RefreshToken} (accepted : Accepted cfg w raw)
    (found : w.token (cfg.sha256 raw) = some t) : t.revoked = false := by
  obtain ⟨t', known, live, -⟩ := accepted
  rw [found] at known
  cases known
  exact live

theorem Accepted.unexpired {t : RefreshToken} (accepted : Accepted cfg w raw)
    (found : w.token (cfg.sha256 raw) = some t) : ¬ t.expiresAt < w.now := by
  obtain ⟨t', known, -, unexpired⟩ := accepted
  rw [found] at known
  cases known
  exact unexpired

/-- What follows once the token has been accepted. -/
def replace (cfg : AuthSettings) (stored : StoredRefreshToken) (client : Client) :
    Proc (Except RefreshError (String × Uuid)) := do
  match ← perform (.updateTokens (.revokeById stored.id)) with
  | .error reason => return .error (.database reason)
  | .ok _ =>
    match ← issue cfg stored.userId client with
    | .error e => return .error e
    | .ok newToken => return .ok (newToken, stored.userId)

theorem replace_ends {t : RefreshToken} {row : Except String (Option StoredRefreshToken)}
    {r : Except RefreshError (String × Uuid)} (accepted : Accepted cfg w raw)
    (found : w.token (cfg.sha256 raw) = some t) (answer : row.isOk = true)
    (serves : Serves (casting cfg isInet) w (replace cfg t.stored client) l (some r) w') :
    Ends cfg isInet w raw client (⟨.utcNow, w.now⟩ :: ⟨.selectToken (cfg.sha256 raw), row⟩ :: l) r w' := by
  obtain ⟨a, affected, w₁, l', updated, revoked, rfl⟩ := serves.op_returned
  cases row with
  | error reason => cases answer
  | ok row =>
  cases affected with
  | error reason =>
    obtain ⟨rfl, rfl, rfl⟩ := revoked.ret_returned
    cases a with
    | failed =>
      cases updated
      exact .refused (.inr (.inr ⟨_, reason, .tail _ (.tail _ (.head _))⟩))
    | ok | text | truth | id => cases updated
  | ok n =>
    have tokens : w₁.tokens ≠ w.tokens := by
      have ne := revoked_ne found (accepted.revoked found)
      cases a <;> cases updated <;> exact ne
    obtain ⟨l₁, value, w₂, l₂, issued, last, rfl⟩ :=
      Serves.bind_returned (p := issue cfg t.stored.userId client) revoked
    obtain ⟨noLookup, noRevocation, ⟨ok, storable⟩ | ⟨⟨e, rfl⟩, same, unstorable⟩⟩ := issue_ends issued
    · cases value with
      | error e => cases ok
      | ok token =>
        obtain ⟨rfl, rfl, rfl⟩ := last.ret_returned
        exact .rotated ⟨storable.1, by simpa [InsertFails] using storable.2⟩
    · obtain ⟨rfl, rfl, rfl⟩ := last.ret_returned
      refine .lost ?_ (fun storable => unstorable ⟨storable.1, ?_⟩) (same ▸ tokens)
      · rintro (unknown | ⟨_, _, mem⟩ | ⟨_, _, mem⟩)
        · exact unknown accepted
        · exact noLookup ⟨_, _, by simpa using mem⟩
        · exact noRevocation ⟨_, _, by simpa using mem⟩
      · simpa [InsertFails] using storable.2

theorem rotate_ends {r : Except RefreshError (String × Uuid)}
    (serves : Serves (casting cfg isInet) w (rotate cfg raw client) l (some r) w') :
    Ends cfg isInet w raw client l r w' := by
  obtain ⟨_, now, w₁, _, clock, timed, rfl⟩ := serves.op_returned
  obtain ⟨a, row, w₂, _, selected, looked, rfl⟩ := timed.op_returned
  cases clock
  cases row with
  | error reason =>
    obtain ⟨rfl, rfl, rfl⟩ := looked.ret_returned
    cases a with
    | failed =>
      cases selected
      exact .refused (.inr (.inl ⟨_, reason, .tail _ (.head _)⟩))
    | ok | text | truth | id => cases selected
  | ok row =>
    obtain ⟨same, found⟩ : w₂ = w ∧ row = (w.token (cfg.sha256 raw)).map RefreshToken.stored := by
      cases a <;> cases selected <;> exact ⟨rfl, rfl⟩
    subst same
    cases found' : w₂.token (cfg.sha256 raw) with
    | none =>
      rw [found'] at found
      subst found
      obtain ⟨rfl, rfl, rfl⟩ := looked.ret_returned
      exact .refused (.inl fun ⟨t, known, _⟩ => by rw [found'] at known; cases known)
    | some t =>
      rw [found'] at found
      subst found
      change Serves _ _ (if t.revoked = true then _ else if t.expiresAt < w₂.now then _ else _) _ _ _ at looked
      split at looked
      next revoked =>
        obtain ⟨rfl, rfl, rfl⟩ := looked.ret_returned
        exact .refused (.inl fun accepted => by simp [accepted.revoked found'] at revoked)
      next live =>
        split at looked
        next expired =>
          obtain ⟨rfl, rfl, rfl⟩ := looked.ret_returned
          exact .refused (.inl fun accepted => accepted.unexpired found' expired)
        next unexpired =>
          exact replace_ends ⟨t, found', by simpa using live, unexpired⟩ found' rfl looked

/-! ## Errors -/

/-- A call that returns an error has left the tokens as they were, if and only if the token had not
    been revoked when it failed or its successor could be stored. -/
theorem rotate_keeps_iff (cfg : AuthSettings) (isInet : String → Bool) (w w' : World) (raw : String)
    (client : Client) (l : List (Exchange Op Op.Resp)) (r : Except RefreshError (String × Uuid))
    (serves : Serves (casting cfg isInet) w (rotate cfg raw client) l (some r) w') :
    ((∃ e, r = .error e) → w'.tokens = w.tokens) ↔ Kept cfg w raw l ∨ Storable isInet client l := by
  cases rotate_ends serves with
  | refused kept => exact iff_of_true (fun _ => rfl) (.inl kept)
  | rotated storable => exact iff_of_true nofun (.inr storable)
  | lost revoked unstorable tokens =>
    refine iff_of_false (fun keeps => tokens (keeps ⟨_, rfl⟩)) ?_
    rintro (kept | storable)
    · exact revoked kept
    · exact unstorable storable

end

/-! ## A client without an address -/

namespace Unnamed

def settings : AuthSettings := { sha256 := id, signingKeyPem := "key", accessTtlSecs := 900 }

def isInet (text : String) : Bool := (IpAddr.parse text.toList).isSome

def user : User :=
  { id := 1, username := "ann", displayName := "Ann", role := .operator, authProvider := .localUser
    passwordHash := some "hash", totpSecretEncrypted := none, totpSecretNonce := none
    mfaEnabled := false, isActive := true, forcePasswordReset := false, failedLoginAttempts := 0
    lockedUntil := none, lastLoginAt := none }

/-- What a proxy writes for a client whose address it does not know. -/
def headers : HeaderMap := [("x-forwarded-for", "unknown".toList.map fun c => c.toNat.toUInt8)]

def client : Client := ⟨none, some "unknown"⟩

theorem clientOf_headers : clientOf headers = client := congrArg (Client.mk none) (by decide +kernel)

theorem invalid : client.ipAddress.all isInet = false := by decide +kernel

def token : RefreshToken := newToken 2 1 "r" 3600000000 ⟨none, none⟩

def before : World := { users := [user], tokens := [token], ids := [1, 2], hashes := ["r"], now := 0 }

def after : World :=
  { before with tokens := [{ token with revoked := true, revokedAt := some 0 }], hashes := ["s", "r"] }

def exchanges : List (Exchange Op Op.Resp) :=
  [⟨.utcNow, (0 : Time)⟩, ⟨.selectToken "r", .ok (some token.stored)⟩,
   ⟨.updateTokens (.revokeById 2), .ok 1⟩,
   ⟨.generateToken, "s"⟩, ⟨.utcNow, (0 : Time)⟩,
   ⟨.insertToken 1 "s" 3600000000 client, .error (invalidInet "unknown")⟩]

theorem served : Serves (casting settings isInet) before (rotate settings "r" client) exchanges
    (some (.error (.database (invalidInet "unknown")))) after :=
  .op (a := Answer.ok) rfl <| .op (a := Answer.ok) rfl <| .op (a := Answer.ok) rfl <|
    .op (a := Answer.text "s") rfl <| .op (a := Answer.ok) rfl <|
      .op (a := Answer.ok) (executeCast_invalid settings.sha256 Answer.ok invalid) .ret

end Unnamed

/-- The token of this call was good and is revoked. -/
theorem rotate_keeps_iff_unknown :
    ((∃ e, (.error (.database (invalidInet "unknown")) : Except RefreshError (String × Uuid)) = .error e) →
      Unnamed.after.tokens = Unnamed.before.tokens) ↔
    Kept Unnamed.settings Unnamed.before "r" Unnamed.exchanges ∨
      Storable Unnamed.isInet Unnamed.client Unnamed.exchanges :=
  rotate_keeps_iff _ _ _ _ _ _ _ _ Unnamed.served

/-- An error after which the table differs. -/
theorem unknown_loses : ¬ ∀ (cfg : AuthSettings) (isInet : String → Bool) (w w' : World) (raw : String)
    (headers : HeaderMap) (l : List (Exchange Op Op.Resp)) (e : RefreshError),
    Serves (casting cfg isInet) w (rotate cfg raw (clientOf headers)) l (some (.error e)) w' →
      w'.tokens = w.tokens := by
  intro keeps
  have same := keeps Unnamed.settings Unnamed.isInet Unnamed.before Unnamed.after "r" Unnamed.headers _ _
    (Unnamed.clientOf_headers ▸ Unnamed.served)
  have revoked : (true :: []) = [false] := congrArg (·.map RefreshToken.revoked) same
  cases revoked

end PatchManager.Auth
