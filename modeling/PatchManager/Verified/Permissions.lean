import PatchManager.Auth.Shape
import PatchManager.Web.SsoLogin

/-! # What a request has shown before it changes an account

What a request has exchanged before it changes an account or signs a token, for every function of
the service that can be called from outside.

Main result: `body_permitted`.
-/

namespace PatchManager.Accounts

open PatchManager.Conc PatchManager.Auth

abbrev State := Sys World Ops Resps Fn
abbrev Ev := Event World Ops Resps Fn
abbrev History := List Ev
abbrev Exchanges := List (Exchange Ops Resps)

abbrev own (o : Op) (r : o.Resp) : Exchange Ops Resps := ⟨.inr o, r⟩

/-- An operation of `Auth` with its answer. -/
abbrev asked (o : Auth.Op) (r : o.Resp) : Exchange Ops Resps := ⟨.inl o, r⟩

variable {l l' : Exchanges} {id : Uuid} {role : String}

/-! ## What has been shown -/

/-- The request goes on as this user. -/
def Bearer (l : Exchanges) (auth : AuthUser) : Prop := ∃ token, own (.requireAuth token) (.ok auth) ∈ l

def AdminBearer (l : Exchanges) : Prop := ∃ auth, Bearer l auth ∧ auth.role = .admin

def OwnBearer (l : Exchanges) (id : Uuid) : Prop := ∃ auth, Bearer l auth ∧ auth.userId = id

/-- The hash of the account, empty where it has none. -/
def HashRead (l : Exchanges) (id : Uuid) (hash : String) : Prop :=
  (∃ found, own (.selectHash id) (.ok found) ∈ l ∧ hash = found.getD "") ∨
    ∃ username found reset, asked (.selectPassword username) (.ok (some (id, found, reset))) ∈ l ∧
      hash = found.getD ""

def PasswordProved (l : Exchanges) (id : Uuid) : Prop :=
  ∃ password hash, HashRead l id hash ∧ asked (.verifyPassword id password hash) true ∈ l

/-- The hash has been made of a password. -/
def Hashed (l : Exchanges) (hash : String) : Prop := ∃ password, asked (.hashPassword password) (.ok hash) ∈ l

/-- The password has been made up and the hash of it. -/
def Generated (l : Exchanges) (password hash : String) : Prop :=
  own .generatePassword password ∈ l ∧ asked (.hashPassword password) (.ok hash) ∈ l

/-- A code for the secret that is stored now, under the name in the token of the request. -/
def CodeProved (l : Exchanges) (id : Uuid) (ciphertext nonce : List UInt8) : Prop :=
  ∃ auth secret code, Bearer l auth ∧ auth.userId = id ∧
    own (.checkCode auth.username secret code) (.ok true) ∈ l ∧
    own (.encrypt secret) (.ok (ciphertext, nonce)) ∈ l

/-- The provider has said who it is. -/
def Identified (l : Exchanges) (who : Identity) : Prop :=
  ∃ token n e issuer audience claims,
    own (.decodeIdToken token n e issuer audience) (.ok claims) ∈ l ∧ identityOf claims = .ok who

/-- The provider has said that the account's address is that of whoever signs in. -/
def AddressProved (l : Exchanges) (id : Uuid) : Prop :=
  ∃ who provider u, Identified l who ∧ own (.selectSsoUser who.email provider) (.ok (some u)) ∈ l ∧
    u.id = id ∧ u.isActive = true

/-- Where a login or a refresh gets the account and the role of a token from. -/
inductive SignedIn (l : Auth.Exchanges) : Uuid → String → Prop
  | login {username password : String} {u : User} (read : ⟨.selectLocalUser username, .ok (some u)⟩ ∈ l)
      (proved : ⟨.verifyPassword u.id password (u.passwordHash.getD ""), true⟩ ∈ l)
      (active : u.isActive = true) (settled : u.forcePasswordReset = false)
      (second : u.mfaEnabled = true → ∃ secret code, ⟨.verifyCode u.username secret code, true⟩ ∈ l) :
      SignedIn l u.id u.role.asStr
  | refresh {hash : String} {stored : StoredRefreshToken} {now : Time} {n : Nat} {u : User}
      (found : ⟨.selectToken hash, .ok (some stored)⟩ ∈ l) (live : stored.revoked = false)
      (clock : ⟨.utcNow, now⟩ ∈ l) (unexpired : now ≤ stored.expiresAt)
      (used : ⟨.updateTokens (.revokeById stored.id), .ok n⟩ ∈ l)
      (read : ⟨.selectUser stored.userId, .ok u⟩ ∈ l) (active : u.isActive = true) :
      SignedIn l u.id u.role.asStr

/-- Where a token gets its account and its role from. -/
inductive Known (l : Exchanges) : Uuid → String → Prop
  | signedIn {part : Auth.Exchanges} {id : Uuid} {role : String} (signed : SignedIn part id role)
      (inside : ∀ o r, ⟨o, r⟩ ∈ part → asked o r ∈ l) : Known l id role
  | sso {who : Identity} {provider : Option AuthProvider} {u : DbUserForSso} (who_ : Identified l who)
      (read : own (.selectSsoUser who.email provider) (.ok (some u)) ∈ l) (active : u.isActive = true) :
      Known l u.id u.role
  | created {who : Identity} {new : NewUser} {id : Uuid} (who_ : Identified l who)
      (inserted : own (.insertUser new) (.ok id) ∈ l) (address : new.email = who.email)
      (reporter : new.role = .reporter) : Known l id "reporter"

def Prints : Ops → Prop
  | .inr (.printPassword _) => True
  | _ => False

/-- What has to have been shown before a statement that changes an account. -/
def permitsUpdate (l : Exchanges) : AccountUpdate → Prop
  | .edit req id => AdminBearer l ∨
    OwnBearer l id ∧ req.role = none ∧ req.isActive = none ∧ req.forcePasswordReset = none
  | .changePassword newHash id => OwnBearer l id ∧ PasswordProved l id ∧ Hashed l newHash
  | .resetPassword newHash _ _ => AdminBearer l ∧ Hashed l newHash
  | .enableMfa ciphertext nonce id => CodeProved l id ciphertext nonce
  | .disableMfa id => AdminBearer l ∨ OwnBearer l id ∧ PasswordProved l id
  | .linkProvider provider _ _ id => AddressProved l id ∧ provider ≠ .localUser
  | .recordSsoLogin _ _ id => AddressProved l id ∨
    ∃ who new, Identified l who ∧ own (.insertUser new) (.ok id) ∈ l
  | .bootstrapPassword newHash => ∃ password, Generated l password newHash ∧ ∀ x ∈ l, ¬ Prints x.1

/-- What has to have been exchanged before an operation. -/
def permits (l : Exchanges) : Ops → Prop
  | .inl (.issueAccessToken id _ role _ _) => Known l id role
  | .inl (.updateUsers (.setPassword newHash id)) => PasswordProved l id ∧ Hashed l newHash
  | .inr (.insertUser new) => AdminBearer l ∧ (∃ hash, new.passwordHash = some hash ∧ Hashed l hash) ∨
    new.role = .reporter ∧ new.passwordHash = none
  | .inr (.updateAccount s) => permitsUpdate l s
  | .inr (.deleteUser id) => ∃ auth, Bearer l auth ∧ auth.role = .admin ∧ auth.userId ≠ id
  | .inr (.printPassword password) => ∃ newHash, Generated l password newHash ∧
    own (.updateAccount (.bootstrapPassword newHash)) (.ok 1) ∈ l ∧ ∀ x ∈ l, ¬ Prints x.1
  | _ => True

/-- An operation that is permitted whatever has been exchanged. -/
def Plain (o : Ops) : Prop := ∀ l, permits l o

/-! ## Programs of `Auth` -/

/-- The same of an operation of `Auth`, in a request that knows some accounts with their roles. -/
def authPermits (known : Uuid → String → Prop) (l : Auth.Exchanges) : Auth.Op → Prop
  | .issueAccessToken id _ role _ _ => known id role ∨ SignedIn l id role
  | .updateUsers (.setPassword newHash id) => (∃ username password found reset,
    ⟨.selectPassword username, .ok (some (id, found, reset))⟩ ∈ l ∧
      ⟨.verifyPassword id password (found.getD ""), true⟩ ∈ l) ∧
    ∃ password, ⟨.hashPassword password, .ok newHash⟩ ∈ l
  | _ => True

def AuthPlain (o : Auth.Op) : Prop := ∀ known l, authPermits known l o

abbrev authContract (known : Uuid → String → Prop) : Contract Auth.Op Auth.Op.Resp Auth.Fn :=
  tracing (fun _ _ => True) (fun σ o => authPermits known σ.done o) (fun _ _ => False) fun _ _ => False

section auth

variable {cfg : AuthSettings} {known : Uuid → String → Prop} {σ : Traced Auth.Op Auth.Op.Resp Auth.Fn}

/-- A part of a program whose operations are all plain. -/
theorem along_of_plain {α : Type} {p : Auth.Proc α}
    (within : p.Within AuthPlain (fun _ => False) fun _ => False) :
    p.Along (authContract known) (fun τ _ => σ.done ⊆ τ.done) σ := by
  refine (within.adds (fun τ o plain => plain known τ.done) σ).weaken ?_
  rintro τ a ⟨-, more, done, -⟩ x mem
  rw [done]
  exact List.mem_append_left _ mem

theorem issue_plain (userId : Uuid) (client : Client) :
    (issue cfg userId client).Within AuthPlain (fun _ => False) fun _ => False := by
  refine .op (fun _ _ => trivial) fun token => .op (fun _ _ => trivial) fun now =>
    .op (fun _ _ => trivial) fun r => ?_
  cases r <;> exact .ret _

theorem checkLock_plain (user : User) :
    (checkLock user).Within AuthPlain (fun _ => False) fun _ => False := by
  unfold checkLock
  cases user.lockedUntil with
  | none => exact .ret _
  | some lockedUntil =>
    refine .op (fun _ _ => trivial) fun now => .ite (.ret _) (.op (fun _ _ => trivial) fun r => ?_)
    cases r <;> exact .ret _

theorem recordFailure_plain (user : User) :
    (recordFailure user).Within AuthPlain (fun _ => False) fun _ => False := by
  unfold recordFailure
  refine .ite (.op (fun _ _ => trivial) fun now => .op (fun _ _ => trivial) fun r => ?_)
    (.op (fun _ _ => trivial) fun r => ?_)
  · cases r <;> exact .ret _
  · cases r <;> exact .ret _

/-- The second factor of a login that goes on. -/
theorem checkMfa_proves (user : User) (totpCode : Option String) :
    (checkMfa user totpCode).Along (authContract known)
      (fun τ r => σ.done ⊆ τ.done ∧ (r = .ok () → user.mfaEnabled = true → ∃ secret code,
        ⟨.verifyCode user.username secret code, true⟩ ∈ τ.done)) σ := by
  unfold checkMfa
  cases enabled : user.mfaEnabled with
  | false =>
    simp only [Bool.not_false, if_true]
    exact ⟨fun _ => id, fun _ => nofun⟩
  | true =>
    simp only [Bool.not_true, Bool.false_eq_true, if_false]
    cases totpCode with
    | none => exact ⟨fun _ => id, nofun⟩
    | some code =>
      have secret_plain : (totpSecret user).Within AuthPlain (fun _ => False) fun _ => False := by
        unfold totpSecret
        cases user.totpSecretEncrypted with
        | none => exact .ret _
        | some enc =>
          cases user.totpSecretNonce with
          | none => exact .ret _
          | some nonce =>
            refine .op (fun _ _ => trivial) fun r => ?_
            cases r with
            | error reason => exact .ret _
            | ok _ =>
              refine .op (fun _ _ => trivial) fun r => ?_
              cases r <;> exact .ret _
      refine Prog.Along.bind (along_of_plain secret_plain) fun τ r kept => ?_
      cases r with
      | error e => exact ⟨kept, nofun⟩
      | ok secret =>
        refine ⟨trivial, fun passed _ => ?_⟩
        cases passed with
        | false => exact ⟨fun _ mem => Traced.mem_earlier (kept mem), nofun⟩
        | true => exact ⟨fun _ mem => Traced.mem_earlier (kept mem), fun _ _ => ⟨secret, code, Traced.mem_next⟩⟩

/-- The tokens of an account that a login has admitted. -/
theorem startSession_along (user : User) (client : Client) (signed : SignedIn σ.done user.id user.role.asStr) :
    (startSession cfg user client).Along (authContract known) (fun _ _ => True) σ := by
  unfold startSession
  refine ⟨.inr signed, fun r _ => ?_⟩
  cases r with
  | error reason => trivial
  | ok accessToken =>
    simp only [Prog.ret_bind]
    refine Prog.Along.bind (along_of_plain (issue_plain user.id client)) fun τ r _ => ?_
    cases r with
    | error e => trivial
    | ok token =>
      refine ⟨trivial, fun now _ => ⟨trivial, fun r _ => ?_⟩⟩
      cases r <;> trivial

theorem login_permitted (req : LoginRequest) (client : Client) :
    (login cfg req client).Along (authContract known) (fun _ _ => True) σ := by
  unfold login
  refine ⟨trivial, fun r _ => ?_⟩
  cases r with
  | error reason => trivial
  | ok found =>
    cases found with
    | none => exact ⟨trivial, fun _ _ => trivial⟩
    | some user =>
      simp only [Prog.ret_bind]
      refine Prog.Along.bind (along_of_plain (checkLock_plain user)) fun τ r kept => ?_
      have read : ⟨.selectLocalUser req.username, .ok (some user)⟩ ∈ τ.done := kept Traced.mem_next
      cases r with
      | error e => trivial
      | ok _ =>
        refine ⟨trivial, fun valid _ => ?_⟩
        cases valid with
        | false =>
          simp only [Prog.ret_bind, Bool.not_false, if_true]
          exact (along_of_plain (recordFailure_plain user)).weaken fun _ _ _ => trivial
        | true =>
          simp only [Prog.ret_bind, Bool.not_true, Bool.false_eq_true, if_false]
          by_cases disabled : (!user.isActive) = true
          · simp only [if_pos disabled]
            trivial
          by_cases reset : user.forcePasswordReset = true
          · simp only [if_neg disabled, if_pos reset]
            trivial
          simp only [if_neg disabled, if_neg reset]
          refine (checkMfa_proves user req.totpCode).bind ?_
          rintro τ' r ⟨kept', second⟩
          cases r with
          | error e => trivial
          | ok _ =>
            refine startSession_along user client (.login (kept' (Traced.mem_earlier read))
              (kept' Traced.mem_next) ?_ ?_ (second rfl))
            · simpa using disabled
            · simpa using reset

/-- A rotation that goes through has found the token good and has used it up. -/
theorem rotate_proves (raw : String) (client : Client) :
    (Auth.rotate cfg raw client).Along (authContract known)
      (fun τ r => ∀ newToken userId, r = .ok (newToken, userId) → ∃ hash stored now n,
        ⟨.selectToken hash, .ok (some stored)⟩ ∈ τ.done ∧ stored.revoked = false ∧
        ⟨.utcNow, now⟩ ∈ τ.done ∧ now ≤ stored.expiresAt ∧
        ⟨.updateTokens (.revokeById stored.id), .ok n⟩ ∈ τ.done ∧ userId = stored.userId) σ := by
  unfold Auth.rotate
  refine ⟨trivial, fun now _ => ⟨trivial, fun r _ => ?_⟩⟩
  cases r with
  | error reason => exact fun _ _ => nofun
  | ok found =>
    cases found with
    | none => exact fun _ _ => nofun
    | some stored =>
      simp only [Prog.ret_bind]
      by_cases gone : stored.revoked = true
      · simp only [if_pos gone]
        exact fun _ _ => nofun
      by_cases expired : stored.expiresAt < now
      · simp only [if_neg gone, if_pos expired]
        exact fun _ _ => nofun
      simp only [if_neg gone, if_neg expired]
      refine ⟨trivial, fun r _ => ?_⟩
      cases r with
      | error reason => exact fun _ _ => nofun
      | ok n =>
        simp only [Prog.ret_bind]
        refine Prog.Along.bind (along_of_plain (issue_plain stored.userId client)) fun τ r kept => ?_
        cases r with
        | error e => exact fun _ _ => nofun
        | ok newToken =>
          rintro _ _ ⟨⟩
          refine ⟨cfg.sha256 raw, stored, now, n, kept ?_, by simpa using gone, kept ?_, Int.not_lt.mp expired,
            kept Traced.mem_next, rfl⟩
          · exact Traced.mem_earlier Traced.mem_next
          · exact Traced.mem_earlier (Traced.mem_earlier Traced.mem_next)

theorem refreshSession_permitted (raw : String) (client : Client) :
    (refreshSession cfg raw client).Along (authContract known) (fun _ _ => True) σ := by
  unfold refreshSession
  refine (rotate_proves raw client).bind fun τ r rotated => ?_
  cases r with
  | error e => trivial
  | ok pair =>
    obtain ⟨newToken, userId⟩ := pair
    obtain ⟨hash, stored, now, n, found, live, clock, unexpired, used, rfl⟩ := rotated newToken userId rfl
    refine ⟨trivial, fun r _ => ?_⟩
    cases r with
    | error reason => trivial
    | ok user =>
      simp only [Prog.ret_bind]
      by_cases disabled : (!user.isActive) = true
      · simp only [if_pos disabled]
        refine ⟨trivial, fun r _ => ?_⟩
        cases r <;> trivial
      · simp only [if_neg disabled]
        refine ⟨.inr (.refresh (Traced.mem_earlier found) live (Traced.mem_earlier clock) unexpired
          (Traced.mem_earlier used) Traced.mem_next (by simpa using disabled)), fun r _ => ?_⟩
        cases r <;> trivial

theorem forceChangePassword_permitted (req : ForceChangePasswordRequest) :
    (forceChangePassword req).Along (authContract known) (fun _ _ => True) σ := by
  unfold forceChangePassword
  cases validatePasswordStrength req.newPassword with
  | error msg => trivial
  | ok _ =>
    refine ⟨trivial, fun r _ => ?_⟩
    cases r with
    | error _ => trivial
    | ok found =>
      cases found with
      | none => trivial
      | some row =>
        obtain ⟨userId, hash, reset⟩ := row
        refine ⟨trivial, fun valid _ => ?_⟩
        cases valid with
        | false => trivial
        | true =>
          refine ⟨trivial, fun r _ => ?_⟩
          cases r with
          | error _ => trivial
          | ok newHash =>
            refine ⟨⟨⟨req.username, req.currentPassword, hash, reset, ?_, ?_⟩, req.newPassword, Traced.mem_next⟩,
              fun r _ => ?_⟩
            · exact Traced.mem_earlier (Traced.mem_earlier Traced.mem_next)
            · exact Traced.mem_earlier Traced.mem_next
            · cases r <;> trivial

/-- Signing tokens for an account that is known. -/
theorem ssoTokens_permitted {userId : Uuid} {username role : String} (is_known : known userId role) :
    (ssoTokens cfg userId username role).Along (authContract known) (fun _ _ => True) σ := by
  refine ⟨.inl is_known, fun r _ => ?_⟩
  cases r with
  | error reason => trivial
  | ok accessToken =>
    simp only [Prog.ret_bind]
    refine Prog.Along.bind (along_of_plain (issue_plain userId ⟨none, none⟩)) fun τ r _ => ?_
    cases r <;> trivial

theorem revokeUserSessions_plain (auth : AuthUser) (id : Uuid) :
    (revokeUserSessions auth id).Within AuthPlain (fun _ => False) fun _ => False := by
  unfold revokeUserSessions
  refine .ite (.ret _) (.op (fun _ _ => trivial) fun r => ?_)
  cases r <;> exact .ret _

theorem logout_plain (raw : String) :
    (logout cfg raw).Within AuthPlain (fun _ => False) fun _ => False := by
  refine .op (fun _ _ => trivial) fun r => ?_
  cases r <;> exact .ret _

end auth

/-! ## Handlers -/

abbrev frontContract : Contract Ops Resps Fn := permitting permits fun f => isEntry f = true

section handlers

variable {cfg : FrontSettings} {σ : Traced Ops Resps Fn} {auth : AuthUser}

theorem Identified.mono {who : Identity} (identified : Identified l who) (more : l ⊆ l') :
    Identified l' who := by
  obtain ⟨token, n, e, issuer, audience, claims, decoded, eq⟩ := identified
  exact ⟨token, n, e, issuer, audience, claims, more decoded, eq⟩

theorem Identified.next {who : Identity} {o : Ops} {r : Resps o} (identified : Identified σ.done who) :
    Identified (σ.next o r).done who :=
  identified.mono fun _ => Traced.mem_earlier

theorem Known.mono (known : Known l id role) (more : l ⊆ l') : Known l' id role := by
  cases known with
  | signedIn signed inside => exact .signedIn signed fun o r mem => more (inside o r mem)
  | sso who read active => exact .sso (who.mono more) (more read) active
  | created who inserted address reporter => exact .created (who.mono more) (more inserted) address reporter

/-- A program of `Auth` in a request that knows what the program relies on. -/
theorem call_permitted {α : Type} {p : Auth.Proc α} (known : Uuid → String → Prop)
    (along : p.Along (authContract known) (fun _ _ => True) {})
    (knows : ∀ id role, known id role → Known σ.done id role) :
    (call p).Along frontContract (fun τ _ => σ.done ⊆ τ.done) σ := by
  -- what the program has exchanged is part of what the request has
  let R (ρ : Traced Auth.Op Auth.Op.Resp Auth.Fn) (τ : Traced Ops Resps Fn) : Prop :=
    (∀ o r, ⟨o, r⟩ ∈ ρ.done → asked o r ∈ τ.done) ∧ σ.done ⊆ τ.done
  have inside : Contract.Within (authContract known) frontContract Fn.auth R := by
    refine ⟨?_, fun _ _ _ => trivial, ?_, fun _ _ _ _ => False.elim, fun _ _ _ _ => False.elim⟩
    · rintro ρ τ o ⟨part, kept⟩ permitted
      cases o with
      | issueAccessToken id name role ttl key =>
        obtain is_known | signed := permitted
        · exact (knows id role is_known).mono kept
        · exact .signedIn signed part
      | updateUsers s =>
        cases s with
        | setPassword newHash id =>
          obtain ⟨⟨username, password, found, reset, read, verified⟩, newPassword, hashed⟩ := permitted
          exact ⟨⟨password, found.getD "", .inr ⟨username, found, reset, part _ _ read, rfl⟩,
            part _ _ verified⟩, newPassword, part _ _ hashed⟩
        | _ => trivial
      | _ => trivial
    · rintro ρ τ o r ⟨part, kept⟩
      refine ⟨fun o' r' mem => ?_, fun x mem => Traced.mem_earlier (kept mem)⟩
      rcases List.mem_append.mp mem with old | new
      · exact Traced.mem_earlier (part o' r' old)
      · cases List.mem_singleton.mp new
        exact Traced.mem_next
  have start : R {} σ := ⟨fun o r mem => absurd mem List.not_mem_nil, fun _ => id⟩
  refine (along.embed inside start).weaken ?_
  rintro τ a ⟨ρ, ⟨-, kept⟩, -⟩
  exact kept

theorem createUser_permitted (bearer : Bearer σ.done auth) (username : String) (displayName : Option String)
    (email role password : String) :
    (createUser auth username displayName email role password).Along frontContract (fun _ _ => True) σ := by
  unfold createUser
  cases admin : auth.role with
  | admin =>
    simp only [UserRole.isAdmin, decide_true, Bool.not_true, Bool.false_eq_true, if_false]
    cases validatePasswordStrength password with
    | error msg => trivial
    | ok _ =>
      refine ⟨trivial, fun r _ => ?_⟩
      cases r with
      | error reason => trivial
      | ok hash =>
        obtain ⟨token, shown⟩ := bearer
        refine ⟨.inl ⟨⟨auth, ⟨token, Traced.mem_earlier shown⟩, admin⟩, hash, rfl, password,
          Traced.mem_next⟩, fun r _ => ?_⟩
        cases r <;> trivial
  | _ => trivial

theorem updateUser_permitted (bearer : Bearer σ.done auth) (id : Uuid) (req : UpdateUserRequest) :
    (updateUser auth id req).Along frontContract (fun _ _ => True) σ := by
  unfold updateUser
  by_cases denied : (!auth.role.isAdmin && auth.userId != id) = true
  · simp only [if_pos denied]
    trivial
  by_cases reserved : ((req.role.isSome || req.isActive.isSome || req.forcePasswordReset.isSome) &&
      !auth.role.isAdmin) = true
  · simp only [if_neg denied, if_pos reserved]
    trivial
  simp only [if_neg denied, if_neg reserved]
  refine ⟨?_, fun r _ => ?_⟩
  · cases admin : auth.role with
    | admin => exact .inl ⟨auth, bearer, admin⟩
    | _ =>
      -- the request is about the account it comes from, and asks for nothing else
      simp [admin, UserRole.isAdmin] at denied reserved
      exact .inr ⟨⟨auth, bearer, denied⟩, reserved.1.1, reserved.1.2, reserved.2⟩
  · cases r with
    | error reason => trivial
    | ok rows =>
      simp only [Prog.ret_bind]
      split <;> trivial

theorem deleteUser_permitted (bearer : Bearer σ.done auth) (id : Uuid) :
    (deleteUser auth id).Along frontContract (fun _ _ => True) σ := by
  unfold deleteUser
  cases admin : auth.role with
  | admin =>
    simp only [UserRole.isAdmin, decide_true, Bool.not_true, Bool.false_eq_true, if_false]
    by_cases own : auth.userId = id
    · simp only [if_pos own]
      trivial
    · simp only [if_neg own]
      refine ⟨⟨auth, bearer, admin, own⟩, fun r _ => ?_⟩
      cases r with
      | error reason => trivial
      | ok rows =>
        simp only [Prog.ret_bind]
        split <;> trivial
  | _ => trivial

/-- The password of the account is proved where the check goes through. -/
theorem verifyOwnPassword_permitted (password : String) :
    (verifyOwnPassword auth password).Along frontContract
      (fun τ r => σ.done ⊆ τ.done ∧ (r = .ok () → PasswordProved τ.done auth.userId)) σ := by
  unfold verifyOwnPassword
  refine ⟨trivial, fun r _ => ?_⟩
  cases r with
  | error reason => exact ⟨fun _ => Traced.mem_earlier, nofun⟩
  | ok hash =>
    refine ⟨trivial, fun valid _ => ?_⟩
    have kept : σ.done ⊆ ((σ.next (.inr (.selectHash auth.userId)) (.ok hash)).next
        (.inl (.verifyPassword auth.userId password (hash.getD ""))) valid).done :=
      fun _ mem => Traced.mem_earlier (Traced.mem_earlier mem)
    cases valid with
    | false => exact ⟨kept, nofun⟩
    | true =>
      refine ⟨kept, fun _ => ⟨password, hash.getD "", .inl ⟨hash, ?_, rfl⟩, Traced.mem_next⟩⟩
      exact Traced.mem_earlier Traced.mem_next

theorem changeOwnPassword_permitted (bearer : Bearer σ.done auth) (currentPassword newPassword : String) :
    (changeOwnPassword auth currentPassword newPassword).Along frontContract (fun _ _ => True) σ := by
  unfold changeOwnPassword
  refine (verifyOwnPassword_permitted currentPassword).bind ?_
  rintro τ r ⟨kept, proved⟩
  cases r with
  | error e => trivial
  | ok _ =>
    simp only
    cases validatePasswordStrength newPassword with
    | error msg => trivial
    | ok _ =>
      refine ⟨trivial, fun r _ => ?_⟩
      cases r with
      | error reason => trivial
      | ok newHash =>
        obtain ⟨token, shown⟩ := bearer
        obtain ⟨password, hash, read, verified⟩ := proved rfl
        refine ⟨⟨⟨auth, ⟨token, Traced.mem_earlier (kept shown)⟩, rfl⟩,
          ⟨password, hash, ?_, Traced.mem_earlier verified⟩, newPassword, Traced.mem_next⟩, fun r _ => ?_⟩
        · obtain ⟨found, selected, eq⟩ | ⟨username, found, reset, selected, eq⟩ := read
          · exact .inl ⟨found, Traced.mem_earlier selected, eq⟩
          · exact .inr ⟨username, found, reset, Traced.mem_earlier selected, eq⟩
        · cases r <;> trivial

theorem adminResetPassword_permitted (bearer : Bearer σ.done auth) (id : Uuid) (newPassword : String)
    (forcePasswordReset : Bool) :
    (adminResetPassword auth id newPassword forcePasswordReset).Along frontContract (fun _ _ => True) σ := by
  unfold adminResetPassword
  cases admin : auth.role with
  | admin =>
    simp only [UserRole.isAdmin, decide_true, Bool.not_true, Bool.false_eq_true, if_false]
    refine ⟨trivial, fun r _ => ?_⟩
    match r with
    | .error reason => trivial
    | .ok false => trivial
    | .ok true =>
      simp only [Prog.ret_bind]
      cases validatePasswordStrength newPassword with
      | error msg => trivial
      | ok _ =>
        refine ⟨trivial, fun r _ => ?_⟩
        cases r with
        | error reason => trivial
        | ok newHash =>
          obtain ⟨token, shown⟩ := bearer
          refine ⟨⟨⟨auth, ⟨token, Traced.mem_earlier (Traced.mem_earlier shown)⟩, admin⟩, newPassword,
            Traced.mem_next⟩, fun r _ => ?_⟩
          cases r <;> trivial
  | _ => trivial

theorem adminDisableMfa_permitted (bearer : Bearer σ.done auth) (id : Uuid) :
    (adminDisableMfa auth id).Along frontContract (fun _ _ => True) σ := by
  unfold adminDisableMfa
  cases admin : auth.role with
  | admin =>
    simp only [UserRole.isAdmin, decide_true, Bool.not_true, Bool.false_eq_true, if_false]
    refine ⟨.inl ⟨auth, bearer, admin⟩, fun r _ => ?_⟩
    cases r with
    | error reason => trivial
    | ok rows =>
      simp only [Prog.ret_bind]
      split <;> trivial
  | _ => trivial

theorem mfaVerify_permitted (bearer : Bearer σ.done auth) (secretBase32 code : String) :
    (mfaVerify auth secretBase32 code).Along frontContract (fun _ _ => True) σ := by
  unfold mfaVerify
  refine ⟨trivial, fun r _ => ?_⟩
  match r with
  | .error reason => trivial
  | .ok false => trivial
  | .ok true =>
    refine ⟨trivial, fun r _ => ?_⟩
    cases r with
    | error reason => trivial
    | ok _ =>
      refine ⟨trivial, fun r _ => ?_⟩
      cases r with
      | error reason => trivial
      | ok secret =>
        obtain ⟨ciphertext, nonce⟩ := secret
        obtain ⟨token, shown⟩ := bearer
        refine ⟨⟨auth, secretBase32, code, ⟨token, ?_⟩, rfl, ?_, Traced.mem_next⟩, fun r _ => ?_⟩
        · exact Traced.mem_earlier (Traced.mem_earlier (Traced.mem_earlier shown))
        · exact Traced.mem_earlier (Traced.mem_earlier Traced.mem_next)
        · cases r <;> trivial

theorem disableMfa_permitted (bearer : Bearer σ.done auth) (password : String) :
    (disableMfa auth password).Along frontContract (fun _ _ => True) σ := by
  unfold disableMfa
  refine (verifyOwnPassword_permitted password).bind ?_
  rintro τ r ⟨kept, proved⟩
  cases r with
  | error e => trivial
  | ok _ =>
    obtain ⟨token, shown⟩ := bearer
    refine ⟨.inr ⟨⟨auth, ⟨token, kept shown⟩, rfl⟩, proved rfl⟩, fun r _ => ?_⟩
    cases r <;> trivial

theorem bootstrapAdminPassword_permitted (fresh : ∀ x ∈ σ.done, ¬ Prints x.1) :
    bootstrapAdminPassword.Along frontContract (fun _ _ => True) σ := by
  have kept : ∀ {τ : Traced Ops Resps Fn} {o : Ops} {r : Resps o}, (∀ x ∈ τ.done, ¬ Prints x.1) → ¬ Prints o →
      ∀ x ∈ (τ.next o r).done, ¬ Prints x.1 := by
    intro τ o r fresh other x mem
    rcases List.mem_append.mp mem with old | new
    · exact fresh x old
    · cases List.mem_singleton.mp new
      exact other
  unfold bootstrapAdminPassword
  refine ⟨trivial, fun r _ => ?_⟩
  cases r with
  | none => trivial
  | some currentHash =>
    simp only [Prog.ret_bind]
    split
    · trivial
    · refine ⟨trivial, fun password _ => ⟨trivial, fun r _ => ?_⟩⟩
      cases r with
      | error reason => trivial
      | ok newHash =>
        refine ⟨⟨password, ⟨Traced.mem_earlier Traced.mem_next, Traced.mem_next⟩,
          kept (kept (kept fresh id) id) id⟩, fun r _ => ?_⟩
        cases r with
        | error reason => trivial
        | ok rows =>
          simp only [Prog.ret_bind]
          split
          · rename_i one
            subst one
            exact ⟨⟨newHash, ⟨Traced.mem_earlier (Traced.mem_earlier Traced.mem_next),
              Traced.mem_earlier Traced.mem_next⟩, Traced.mem_next, kept (kept (kept (kept fresh id) id) id) id⟩,
              fun _ _ => trivial⟩
          · trivial

/-- A part of a request whose operations are all plain. -/
theorem plain_permitted {α : Type} {p : Proc α} (within : p.Within Plain (fun _ => False) fun _ => False) :
    p.Along frontContract (fun τ _ => σ.done ⊆ τ.done) σ := by
  refine (within.adds (fun τ o plain => plain τ.done) σ).weaken ?_
  rintro τ a ⟨-, more, done, -⟩ x mem
  rw [done]
  exact List.mem_append_left _ mem

/-- What the provider's documents and the settings are kept and read with. -/
def OfDocuments : Ops → Prop
  | .inl .utcNow | .inl (.decrypt _ _) | .inr .loadOidcConfig | .inr .cachedDiscovery | .inr (.getDiscovery _)
  | .inr (.cacheDiscovery _) | .inr .cachedJwks | .inr (.fetchJwks _) | .inr (.cacheJwks _) => True
  | _ => False

abbrev Reads {α : Type} (p : Proc α) : Prop := p.Within OfDocuments (fun _ => False) fun _ => False

theorem OfDocuments.plain {o : Ops} (documents : OfDocuments o) : Plain o := fun l => by
  unfold OfDocuments at documents
  split at documents <;> trivial

theorem reads_permitted {α : Type} {p : Proc α} (reads : Reads p) :
    p.Along frontContract (fun τ _ => σ.done ⊆ τ.done) σ :=
  plain_permitted (reads.mono (fun _ => OfDocuments.plain) (fun _ => id) fun _ => id)

theorem loadOidcConfig_reads : Reads loadOidcConfig := by
  refine .op trivial fun r => ?_
  cases r <;> exact .ret _

theorem downloadDiscovery_reads (url : String) : Reads (downloadDiscovery url) := by
  refine .op trivial fun r => ?_
  cases r with
  | error reason => exact .ret _
  | ok doc => exact .op trivial fun now => .op trivial fun _ => .ret _

theorem fetchDiscovery_reads : Reads fetchDiscovery := by
  unfold fetchDiscovery
  refine .bind loadOidcConfig_reads fun config => ?_
  cases config with
  | error e => exact .ret _
  | ok config =>
    refine .op trivial fun cached => ?_
    cases cached with
    | none => exact downloadDiscovery_reads _
    | some disc => exact .op trivial fun now => .ite (.ret _) (downloadDiscovery_reads _)

theorem downloadJwks_reads (uri : String) : Reads (downloadJwks uri) := by
  refine .op trivial fun r => ?_
  cases r with
  | error reason => exact .ret _
  | ok jwks => exact .op trivial fun _ => .ret _

theorem currentJwks_reads (uri : String) : Reads (currentJwks uri) := by
  refine .op trivial fun cached => ?_
  cases cached with
  | none => exact downloadJwks_reads uri
  | some pair => exact .op trivial fun now => .ite (downloadJwks_reads uri) (.ret _)

theorem clientSecret_reads (config : Settings.OidcConfig) : Reads (clientSecret config) := by
  unfold clientSecret
  cases config.clientSecretEncrypted with
  | none => exact .ret _
  | some enc =>
    cases config.clientSecretNonce with
    | none => exact .ret _
    | some nonce => exact .op trivial fun r => .ret _

theorem ssoLogin_plain : (ssoLogin cfg).Within Plain (fun _ => False) fun _ => False := by
  unfold ssoLogin
  have plain : ∀ o, OfDocuments o → Plain o := fun _ => OfDocuments.plain
  refine .bind (loadOidcConfig_reads.mono plain (fun _ => id) fun _ => id) fun config => ?_
  cases config with
  | error e => exact .ret _
  | ok config =>
    refine .ite (.ret _) (.ite (.ret _)
      (.bind (fetchDiscovery_reads.mono plain (fun _ => id) fun _ => id) fun discovery => ?_))
    cases discovery with
    | error e => exact .ret _
    | ok discovery =>
      exact .op (fun _ => trivial) fun verifier => .op (fun _ => trivial) fun state =>
        .op (fun _ => trivial) fun now => .op (fun _ => trivial) fun _ => .ret _

theorem handOff_plain (provider : AuthProvider) (user : DbUserForSso) (accessToken rawRefresh : String) :
    (handOff cfg provider user accessToken rawRefresh).Within Plain (fun _ => False) fun _ => False :=
  .op (fun _ => trivial) fun _ => .op (fun _ => trivial) fun _ => .op (fun _ => trivial) fun _ => .ret _

/-- Claims come from a token that has been decoded. -/
theorem verifyIdToken_permitted (token : String) (config : Settings.OidcConfig) (discovery : OidcDiscovery) :
    (verifyIdToken token config discovery).Along frontContract
      (fun τ r => σ.done ⊆ τ.done ∧ ∀ claims, r = .ok claims → ∃ n e,
        own (.decodeIdToken token n e discovery.issuer config.clientId) (.ok claims) ∈ τ.done) σ := by
  unfold verifyIdToken
  refine ⟨trivial, fun r _ => ?_⟩
  match r with
  | .error reason => exact ⟨fun _ => Traced.mem_earlier, nofun⟩
  | .ok none => exact ⟨fun _ => Traced.mem_earlier, nofun⟩
  | .ok (some kid) =>
    simp only [Prog.ret_bind]
    refine (reads_permitted (currentJwks_reads discovery.jwksUri)).bind fun τ r more => ?_
    have kept : σ.done ⊆ τ.done := fun _ mem => more (Traced.mem_earlier mem)
    cases r with
    | error reason => exact ⟨kept, nofun⟩
    | ok jwks =>
      simp only
      cases findKey jwks kid with
      | error reason => exact ⟨kept, nofun⟩
      | ok key =>
        obtain ⟨n, e⟩ := key
        refine ⟨trivial, fun r _ => ?_⟩
        cases r with
        | error reason => exact ⟨fun _ mem => Traced.mem_earlier (kept mem), nofun⟩
        | ok _ =>
          refine ⟨trivial, fun r _ => ?_⟩
          cases r with
          | error reason => exact ⟨fun _ mem => Traced.mem_earlier (Traced.mem_earlier (kept mem)), nofun⟩
          | ok claims =>
            refine ⟨fun _ mem => Traced.mem_earlier (Traced.mem_earlier (kept mem)), ?_⟩
            rintro _ ⟨⟩
            exact ⟨n, e, Traced.mem_next⟩

theorem exchangeCode_permitted (code : String) (session : SsoSession) (config : Settings.OidcConfig) :
    (exchangeCode code session config).Along frontContract
      (fun τ r => ∀ claims who, r = .ok claims → identityOf claims = .ok who → Identified τ.done who) σ := by
  unfold exchangeCode
  refine (reads_permitted fetchDiscovery_reads).bind fun τ r _ => ?_
  cases r with
  | error e => exact fun _ _ => nofun
  | ok discovery =>
    refine ⟨trivial, fun r _ => ?_⟩
    cases r with
    | error e => exact fun _ _ => nofun
    | ok _ =>
      simp only [Prog.ret_bind]
      refine (reads_permitted (clientSecret_reads config)).bind fun τ r _ => ?_
      cases r with
      | error e => exact fun _ _ => nofun
      | ok secret =>
        refine ⟨trivial, fun r _ => ?_⟩
        match r with
        | .error (.send e) => exact fun _ _ => nofun
        | .error (.http status) => exact fun _ _ => nofun
        | .error .parse => exact fun _ _ => nofun
        | .ok ⟨none⟩ => exact fun _ _ => nofun
        | .ok ⟨some idToken⟩ =>
          simp only [Prog.ret_bind]
          refine (verifyIdToken_permitted idToken config discovery).bind ?_
          rintro τ r ⟨-, decoded⟩
          cases r with
          | error e => exact fun _ _ => nofun
          | ok claims =>
            rintro _ who ⟨⟩ identity
            obtain ⟨n, e, mem⟩ := decoded claims rfl
            exact ⟨idToken, n, e, discovery.issuer, config.clientId, claims, mem, identity⟩

theorem providerOf_ne (providerType : String) : providerOf providerType ≠ .localUser := by
  unfold providerOf
  split
  · simp
  · split <;> simp

/-- The account of whoever signs in is known, with its role. -/
theorem ssoAccount_permitted {provider : AuthProvider} (outside : provider ≠ .localUser) {who : Identity}
    (identified : Identified σ.done who) :
    (ssoAccount provider who).Along frontContract
      (fun τ r => ∀ u, r = .ok u → Known τ.done u.id u.role ∧
        ∀ azureOid oidcSub, permitsUpdate τ.done (.recordSsoLogin azureOid oidcSub u.id)) σ := by
  unfold ssoAccount
  refine ⟨trivial, fun r _ => ?_⟩
  match r with
  | .error reason => exact fun _ => nofun
  | .ok (some u) =>
    simp only [Prog.ret_bind]
    cases active : u.isActive with
    | false =>
      simp only [Bool.not_false, if_true]
      exact fun _ => nofun
    | true =>
      simp only [Bool.not_true, Bool.false_eq_true, if_false]
      rintro _ ⟨⟩
      exact ⟨.sso identified.next Traced.mem_next active,
        fun _ _ => .inl ⟨who, some provider, u, identified.next, Traced.mem_next, rfl, active⟩⟩
  | .ok none =>
    refine ⟨trivial, fun r _ => ?_⟩
    match r with
    | .error reason => exact fun _ => nofun
    | .ok (some existing) =>
      simp only [Prog.ret_bind]
      cases active : existing.isActive with
      | false =>
        simp only [Bool.not_false, if_true]
        exact fun _ => nofun
      | true =>
        simp only [Bool.not_true, Bool.false_eq_true, if_false]
        refine ⟨⟨⟨who, none, existing, identified.next.next, Traced.mem_next, rfl, active⟩, outside⟩, fun r _ => ?_⟩
        cases r with
        | error reason => exact fun _ => nofun
        | ok n =>
          rintro _ ⟨⟩
          refine ⟨?_, fun _ _ => .inl ⟨who, none, existing, identified.next.next.next,
            Traced.mem_earlier Traced.mem_next, rfl, active⟩⟩
          change Known _ existing.id existing.role
          exact .sso identified.next.next.next (Traced.mem_earlier Traced.mem_next) active
    | .ok none =>
      refine ⟨.inr ⟨rfl, rfl⟩, fun r _ => ?_⟩
      cases r with
      | error reason => exact fun _ => nofun
      | ok id =>
        rintro _ ⟨⟩
        exact ⟨.created identified.next.next.next Traced.mem_next rfl rfl,
          fun _ _ => .inr ⟨who, _, identified.next.next.next, Traced.mem_next⟩⟩

theorem signIn_permitted {provider : AuthProvider} (outside : provider ≠ .localUser) {who : Identity}
    (identified : Identified σ.done who) :
    (signIn cfg provider who).Along frontContract (fun _ _ => True) σ := by
  unfold signIn
  refine (ssoAccount_permitted outside identified).bind fun τ r account => ?_
  cases r with
  | error e => trivial
  | ok user =>
    obtain ⟨known, records⟩ := account user rfl
    refine ⟨records who.azureOid who.providerSubject, fun r _ => ?_⟩
    cases r with
    | error reason => trivial
    | ok n =>
      simp only [Prog.ret_bind]
      refine Prog.Along.bind (call_permitted (fun id role => id = user.id ∧ role = user.role)
        (ssoTokens_permitted ⟨rfl, rfl⟩) ?_) fun τ' r _ => ?_
      · rintro _ _ ⟨rfl, rfl⟩
        exact known.mono fun _ => Traced.mem_earlier
      · cases r with
        | error message => trivial
        | ok pair =>
          exact Prog.Along.bind (plain_permitted (handOff_plain ..)) fun _ _ _ => trivial

theorem callbackOf_permitted (code state : String) :
    (callbackOf cfg code state).Along frontContract (fun _ _ => True) σ := by
  unfold callbackOf
  refine ⟨trivial, fun r _ => ?_⟩
  cases r with
  | none => trivial
  | some session =>
    simp only [Prog.ret_bind]
    refine (reads_permitted loadOidcConfig_reads).bind fun τ r _ => ?_
    cases r with
    | error e => trivial
    | ok config =>
      refine (exchangeCode_permitted code session config).bind fun τ r identified => ?_
      cases r with
      | error e => trivial
      | ok claims =>
        simp only
        cases identity : identityOf claims with
        | error e => trivial
        | ok who => exact signIn_permitted (providerOf_ne _) (identified claims who rfl identity)

theorem ssoCallback_permitted (code state error errorDescription : Option String) :
    (ssoCallback cfg code state error errorDescription).Along frontContract (fun _ _ => True) σ := by
  unfold ssoCallback
  match error, code, state with
  | some error, _, _ => trivial
  | none, none, _ => trivial
  | none, some code, none => trivial
  | none, some code, some state =>
    refine (callbackOf_permitted code state).bind fun τ r _ => ?_
    cases r <;> trivial

/-- A request goes on with the user its token stands for. -/
theorem withAuth_permitted {α : Type} {token : String} {handler : AuthUser → Proc α}
    (permitted : ∀ auth τ, Bearer (Traced.done τ) auth →
      (handler auth).Along frontContract (fun _ _ => True) τ) :
    (withAuth token handler).Along frontContract (fun _ _ => True) σ := by
  refine ⟨trivial, fun r _ => ?_⟩
  cases r with
  | error e => trivial
  | ok auth => exact (permitted auth _ ⟨token, Traced.mem_next⟩).bind fun _ _ _ => trivial

theorem body_permitted {f : Fn} (entry : isEntry f = true) :
    (body cfg f).Along frontContract (fun _ _ => True) (.init f) := by
  have alone : ∀ {α : Type} {p : Auth.Proc α} {σ : Traced Ops Resps Fn},
      p.Along (authContract fun _ _ => False) (fun _ _ => True) {} →
      (call p).Along frontContract (fun _ _ => True) σ := fun along =>
    (call_permitted (fun _ _ => False) along fun _ _ => False.elim).weaken fun _ _ _ => trivial
  cases f with
  | auth f =>
    refine alone ?_
    cases f with
    | login req client => exact (login_permitted req client).bind fun _ _ _ => trivial
    | refreshSession raw client => exact (refreshSession_permitted raw client).bind fun _ _ _ => trivial
    | logout raw => exact (along_of_plain (logout_plain raw)).bind fun _ _ _ => trivial
    | forceChangePassword req => exact (forceChangePassword_permitted req).bind fun _ _ _ => trivial
    | ssoLogin | revokeUserSessions => cases entry
  | revokeUserSessions token id =>
    exact withAuth_permitted fun auth τ _ =>
      alone ((along_of_plain (revokeUserSessions_plain auth id)).weaken fun _ _ _ => trivial)
  | createUser token username displayName email role password =>
    exact withAuth_permitted fun auth τ bearer => createUser_permitted bearer ..
  | updateUser token id req => exact withAuth_permitted fun auth τ bearer => updateUser_permitted bearer id req
  | deleteUser token id => exact withAuth_permitted fun auth τ bearer => deleteUser_permitted bearer id
  | changeOwnPassword token currentPassword newPassword =>
    exact withAuth_permitted fun auth τ bearer => changeOwnPassword_permitted bearer ..
  | adminResetPassword token id newPassword force =>
    exact withAuth_permitted fun auth τ bearer => adminResetPassword_permitted bearer ..
  | adminDisableMfa token id =>
    exact withAuth_permitted fun auth τ bearer => adminDisableMfa_permitted bearer id
  | mfaVerify token secret code =>
    exact withAuth_permitted fun auth τ bearer => mfaVerify_permitted bearer secret code
  | disableMfa token password =>
    exact withAuth_permitted fun auth τ bearer => disableMfa_permitted bearer password
  | ssoLogin => exact (plain_permitted ssoLogin_plain).bind fun _ _ _ => trivial
  | ssoCallback code state error errorDescription =>
    exact (ssoCallback_permitted code state error errorDescription).bind fun _ _ _ => trivial
  | bootstrapAdminPassword => exact bootstrapAdminPassword_permitted (by simp [Traced.init])

end handlers

end PatchManager.Accounts
