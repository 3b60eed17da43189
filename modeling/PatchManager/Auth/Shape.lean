import PatchManager.Auth.Session

/-! # What a request has done before

For the operations that matter to tokens and locks: what the request that performs one has
exchanged up to then.

Main result: `body_shaped`, for every function of the service.
-/

namespace PatchManager.Auth

open PatchManager.Conc

abbrev Exchanges := List (Exchange Op Op.Resp)

/-- The hash an operation inserts a token under. -/
def Op.inserts : Op → Option String
  | .insertToken _ hash _ _ => some hash
  | _ => none

/-- `rotate` has found the token, not revoked. -/
def Found (cfg : AuthSettings) (raw : String) (stored : StoredRefreshToken) (l : Exchanges) : Prop :=
  ∃ now rest, stored.revoked = false ∧
    l = ⟨.utcNow, now⟩ :: ⟨.selectToken (cfg.sha256 raw), .ok (some stored)⟩ :: rest

/-- A token has been generated and nothing has been inserted. -/
def Generated (cfg : AuthSettings) (hash : String) (l : Exchanges) : Prop :=
  (∃ token, ⟨.generateToken, token⟩ ∈ l ∧ cfg.sha256 token = hash) ∧ ∀ x ∈ l, x.1.inserts = none

/-- A login has found the account and takes it for not locked. -/
inductive Admitted (username : String) (user : User) : Exchanges → Prop
  | unlocked (free : user.lockedUntil = none) :
      Admitted username user [⟨.selectLocalUser username, .ok (some user)⟩]
  | expired {lockedUntil now : Time} {n : Nat} (lock : user.lockedUntil = some lockedUntil)
      (expired : lockedUntil ≤ now) :
      Admitted username user [⟨.selectLocalUser username, .ok (some user)⟩, ⟨.utcNow, now⟩,
        ⟨.updateUsers (.clearLock user.id), .ok n⟩]

/-- The password of a login has not matched. -/
def Rejected (username : String) (user : User) (l : Exchanges) : Prop :=
  ∃ admitted password hash, Admitted username user admitted ∧
    l = admitted ++ [⟨.verifyPassword user.id password hash, false⟩]

/-- What a request has exchanged before an operation. -/
def shape (cfg : AuthSettings) (f : Fn) (l : Exchanges) : Op → Prop
  | .updateTokens (.revokeById id) => ∃ raw client now stored, f = .refreshSession raw client ∧
    l = [⟨.utcNow, now⟩, ⟨.selectToken (cfg.sha256 raw), .ok (some stored)⟩] ∧
    stored.revoked = false ∧ id = stored.id
  | .updateTokens (.revokeAllForUser _) =>
    (∃ auth id, f = .revokeUserSessions auth id) ∨ ∃ raw client, f = .refreshSession raw client
  | .insertToken userId hash _ _ => Generated cfg hash l ∧
    ∀ raw client, f = .refreshSession raw client →
      ∃ stored n, Found cfg raw stored l ∧ userId = stored.userId ∧
        ⟨.updateTokens (.revokeById stored.id), .ok n⟩ ∈ l
  | .issueAccessToken _ _ _ _ _ => ∀ raw client, f = .refreshSession raw client →
    ∃ stored, Found cfg raw stored l
  | .verifyPassword userId _ _ =>
    (∃ req client user, f = .login req client ∧ Admitted req.username user l ∧ userId = user.id) ∨
      ∃ req hash reset, f = .forceChangePassword req ∧
        l = [⟨.selectPassword req.username, .ok (some (userId, hash, reset))⟩]
  | .updateUsers (.clearLock id) => ∃ req client user lockedUntil now, f = .login req client ∧
    l = [⟨.selectLocalUser req.username, .ok (some user)⟩, ⟨.utcNow, now⟩] ∧
    user.lockedUntil = some lockedUntil ∧ lockedUntil ≤ now ∧ id = user.id
  | .updateUsers (.lockAccount attempts _ id) => ∃ req client user l₀ now, f = .login req client ∧
    Rejected req.username user l₀ ∧ l = l₀ ++ [⟨.utcNow, now⟩] ∧ id = user.id ∧
    attempts = user.failedLoginAttempts + 1 ∧ 5 ≤ attempts
  | .updateUsers (.countFailure attempts id) => ∃ req client user, f = .login req client ∧
    Rejected req.username user l ∧ id = user.id ∧ attempts = user.failedLoginAttempts + 1 ∧ attempts < 5
  | _ => True

/-- An operation that `shape` says nothing about. -/
def Op.plain : Op → Bool
  | .updateTokens (.revokeById _) | .updateTokens (.revokeAllForUser _) | .insertToken _ _ _ _
  | .issueAccessToken _ _ _ _ _ | .verifyPassword _ _ _ | .updateUsers (.clearLock _)
  | .updateUsers (.lockAccount _ _ _) | .updateUsers (.countFailure _ _) => false
  | _ => true

variable {cfg : AuthSettings} {σ : Traced Op Op.Resp Fn}

theorem guar_of_plain {o : Op} (plain : o.plain = true) : (shaped (shape cfg)).guar σ o := by
  intro f _
  cases o with
  | updateTokens s => cases s <;> trivial
  | updateUsers s => cases s <;> trivial
  | _ => trivial

/-- What is permitted to the function of a task is permitted to it. -/
theorem guar_of_root {o : Op} {f : Fn} (root : σ.root = some f) (permitted : shape cfg f σ.done o) :
    (shaped (shape cfg)).guar σ o := by
  intro f' root'
  obtain rfl := Option.some.inj (root.symm.trans root')
  exact permitted

/-! ## Parts -/

/-- `issue` in a request that has inserted nothing, and has rotated when it is a refresh. -/
theorem issue_along {f : Fn} {userId : Uuid} {client : Client} (root : σ.root = some f)
    (fresh : ∀ x ∈ σ.done, x.1.inserts = none)
    (rotated : ∀ raw client, f = .refreshSession raw client → ∃ stored n,
      Found cfg raw stored σ.done ∧ userId = stored.userId ∧
        ⟨.updateTokens (.revokeById stored.id), .ok n⟩ ∈ σ.done) :
    (issue cfg userId client).Along (shaped (shape cfg)) (fun _ _ => True) σ := by
  refine ⟨guar_of_plain rfl, fun token _ => ⟨guar_of_plain rfl, fun now _ => ⟨?_, fun r _ => ?_⟩⟩⟩
  · refine guar_of_root root ⟨⟨⟨token, by simp [shaped, tracing, Traced.next], rfl⟩, ?_⟩, ?_⟩
    · intro x mem
      simp only [shaped, tracing, Traced.next, List.append_assoc, List.mem_append, List.mem_cons,
        List.not_mem_nil, or_false] at mem
      rcases mem with old | rfl | rfl
      · exact fresh x old
      · rfl
      · rfl
    · intro raw client eq
      obtain ⟨stored, n, ⟨now', rest, live, split⟩, owner, revoked⟩ := rotated raw client eq
      exact ⟨stored, n, ⟨now', rest ++ [⟨.generateToken, token⟩, ⟨.utcNow, now⟩], live,
        by simp [shaped, tracing, Traced.next, split]⟩, owner,
        by simp [shaped, tracing, Traced.next, revoked]⟩
  · cases r <;> trivial

/-- The lock check of a login, which goes on only when it takes the account for not locked. -/
theorem checkLock_along {req : LoginRequest} (client : Client) {user : User} :
    (checkLock user).Along (shaped (shape cfg))
      (fun σ r => σ.root = some (.login req client) ∧ (r = .ok () → Admitted req.username user σ.done))
      ⟨some (.login req client), [⟨.selectLocalUser req.username, .ok (some user)⟩]⟩ := by
  unfold checkLock
  cases lock : user.lockedUntil with
  | none => exact ⟨rfl, fun _ => .unlocked lock⟩
  | some lockedUntil =>
    refine ⟨guar_of_plain rfl, fun now _ => ?_⟩
    by_cases early : now < lockedUntil
    · simp only [Prog.ret_bind, if_pos early]
      exact ⟨rfl, nofun⟩
    · have expired := Int.not_lt.mp early
      simp only [Prog.ret_bind, if_neg early]
      refine ⟨guar_of_root rfl ⟨req, client, user, lockedUntil, now, rfl, rfl, lock, expired, rfl⟩, ?_⟩
      intro r _
      cases r with
      | error reason => exact ⟨rfl, nofun⟩
      | ok n => exact ⟨rfl, fun _ => .expired lock expired⟩

theorem recordFailure_along {req : LoginRequest} {client : Client} {user : User}
    (root : σ.root = some (.login req client)) (rejected : Rejected req.username user σ.done) :
    (recordFailure user).Along (shaped (shape cfg)) (fun _ _ => True) σ := by
  unfold recordFailure
  by_cases many : 5 ≤ user.failedLoginAttempts + 1
  · simp only [if_pos many]
    refine ⟨guar_of_plain rfl, fun now _ => ⟨guar_of_root root ?_, fun r _ => ?_⟩⟩
    · exact ⟨req, client, user, σ.done, now, rfl, rejected, rfl, rfl, rfl, many⟩
    · cases r <;> trivial
  · simp only [if_neg many]
    refine ⟨guar_of_root root ?_, fun r _ => ?_⟩
    · exact ⟨req, client, user, rfl, rejected, rfl, rfl, Nat.not_le.mp many⟩
    · cases r <;> trivial

/-- What the TOTP check of a login asks for. -/
def Op.checksMfa : Op → Bool
  | .loadKey | .decrypt _ _ | .verifyCode _ _ _ => true
  | _ => false

/-- An operation that neither `shape` nor the uses of tokens care about. -/
def Op.Quiet (o : Op) : Prop := o.plain = true ∧ o.inserts = none

theorem checkMfa_asks (user : User) (totpCode : Option String) :
    (checkMfa user totpCode).Within (·.checksMfa = true) (fun _ => False) fun _ => False := by
  unfold checkMfa
  refine .ite (.ret _) ?_
  cases totpCode with
  | none => exact .ret _
  | some code =>
    refine .bind ?_ fun secret => ?_
    · unfold totpSecret
      cases user.totpSecretEncrypted with
      | none => exact .ret _
      | some enc =>
        cases user.totpSecretNonce with
        | none => exact .ret _
        | some nonce =>
          refine .op rfl fun r => ?_
          cases r with
          | error _ => exact .ret _
          | ok _ =>
            refine .op rfl fun r => ?_
            cases r <;> exact .ret _
    · cases secret with
      | error e => exact .ret _
      | ok secret => exact .op rfl fun ok => .ite (.ret _) (.ret _)

theorem checkMfa_within (user : User) (totpCode : Option String) :
    (checkMfa user totpCode).Within Op.Quiet (fun _ => False) fun _ => False := by
  refine (checkMfa_asks user totpCode).mono (fun o asked => ?_) (fun _ => id) fun _ => id
  cases o with
  | loadKey | decrypt | verifyCode => exact ⟨rfl, rfl⟩
  | _ => cases asked

theorem startSession_along {f : Fn} {user : User} {client : Client} (root : σ.root = some f)
    (other : ∀ raw client, f ≠ .refreshSession raw client) (fresh : ∀ x ∈ σ.done, x.1.inserts = none) :
    (startSession cfg user client).Along (shaped (shape cfg)) (fun _ _ => True) σ := by
  unfold startSession
  refine ⟨guar_of_root root fun raw client eq => absurd eq (other raw client), fun r _ => ?_⟩
  cases r with
  | error reason => trivial
  | ok accessToken =>
    simp only [Prog.ret_bind]
    refine Prog.Along.bind (issue_along root ?_ fun raw client eq => absurd eq (other raw client)) ?_
    · intro x mem
      rcases List.mem_append.mp mem with old | new
      · exact fresh x old
      · obtain rfl := List.mem_singleton.mp new
        rfl
    · rintro σ' r -
      cases r with
      | error e => trivial
      | ok token =>
        refine ⟨guar_of_plain rfl, fun now _ => ⟨guar_of_plain rfl, fun r _ => ?_⟩⟩
        cases r <;> trivial

theorem admitted_fresh {username : String} {user : User} {l : Exchanges}
    (admitted : Admitted username user l) : ∀ x ∈ l, x.1.inserts = none := by
  cases admitted <;> simp [Op.inserts]

theorem login_along (req : LoginRequest) (client : Client) :
    (login cfg req client).Along (shaped (shape cfg)) (fun _ _ => True) (.init (.login req client)) := by
  unfold login
  refine ⟨guar_of_plain rfl, fun r _ => ?_⟩
  cases r with
  | error reason => trivial
  | ok found =>
    cases found with
    | none => exact ⟨guar_of_plain rfl, fun _ _ => trivial⟩
    | some user =>
      simp only [Prog.ret_bind]
      refine Prog.Along.bind (checkLock_along client) ?_
      rintro ⟨root, done⟩ r ⟨rfl, admitted⟩
      cases r with
      | error e => trivial
      | ok _ =>
        replace admitted := admitted rfl
        refine ⟨guar_of_root rfl (.inl ⟨req, client, user, rfl, admitted, rfl⟩), fun valid _ => ?_⟩
        have fresh : ∀ x ∈ done ++ [⟨.verifyPassword user.id req.password (user.passwordHash.getD ""), valid⟩],
            x.1.inserts = none := by
          intro x mem
          rcases List.mem_append.mp mem with old | new
          · exact admitted_fresh admitted x old
          · obtain rfl := List.mem_singleton.mp new
            rfl
        cases valid with
        | false =>
          simp only [Prog.ret_bind, Bool.not_false, if_true]
          exact recordFailure_along rfl ⟨done, _, _, admitted, rfl⟩
        | true =>
          simp only [Prog.ret_bind, Bool.not_true, Bool.false_eq_true, if_false]
          by_cases active : (!user.isActive) = true
          · simp only [if_pos active]
            trivial
          · by_cases reset : user.forcePasswordReset = true
            · simp only [if_neg active, if_pos reset]
              trivial
            · simp only [if_neg active, if_neg reset]
              refine Prog.Along.bind ((checkMfa_within user req.totpCode).adds
                (fun σ o quiet => guar_of_plain quiet.1) _) ?_
              rintro σ' r ⟨root, more, eq, quiet⟩
              cases r with
              | error e => trivial
              | ok _ =>
                refine startSession_along root nofun fun x mem => ?_
                rw [eq] at mem
                rcases List.mem_append.mp mem with old | new
                · exact fresh x old
                · exact (quiet x new).2

/-- `rotate`, which returns a token only after it has found the one presented. -/
theorem rotate_along (raw : String) (client : Client) :
    (rotate cfg raw client).Along (shaped (shape cfg))
      (fun σ r => σ.root = some (.refreshSession raw client) ∧
        ∀ pair, r = .ok pair → ∃ stored, Found cfg raw stored σ.done)
      (.init (.refreshSession raw client)) := by
  unfold rotate
  refine ⟨guar_of_plain rfl, fun now _ => ⟨guar_of_plain rfl, fun r _ => ?_⟩⟩
  cases r with
  | error reason => exact ⟨rfl, fun _ eq => by cases eq⟩
  | ok found =>
    cases found with
    | none => exact ⟨rfl, fun _ eq => by cases eq⟩
    | some stored =>
      simp only [Prog.ret_bind]
      by_cases gone : stored.revoked = true
      · simp only [if_pos gone]
        exact ⟨rfl, fun _ eq => by cases eq⟩
      have live : stored.revoked = false := Bool.not_eq_true _ ▸ gone
      by_cases expired : stored.expiresAt < now
      · simp only [if_neg gone, if_pos expired]
        exact ⟨rfl, fun _ eq => by cases eq⟩
      simp only [if_neg gone, if_neg expired]
      refine ⟨guar_of_root rfl ⟨raw, client, now, stored, rfl, rfl, live, rfl⟩, fun r _ => ?_⟩
      cases r with
      | error reason => exact ⟨rfl, fun _ eq => by cases eq⟩
      | ok n =>
        simp only [Prog.ret_bind]
        refine Prog.Along.bind (issue_along rfl ?_ ?_).adds ?_
        · simp [shaped, tracing, Traced.next, Traced.init, Op.inserts]
        · rintro raw' client' ⟨⟩
          exact ⟨stored, n, ⟨now, _, live, rfl⟩, rfl, by simp [shaped, tracing, Traced.next]⟩
        · rintro ⟨root, done⟩ r ⟨-, rfl, more, eq⟩
          cases r with
          | error e => exact ⟨rfl, fun _ eq => by cases eq⟩
          | ok token =>
            exact ⟨rfl, fun _ _ =>
              ⟨stored, now, ⟨.updateTokens (.revokeById stored.id), .ok n⟩ :: more, live, eq⟩⟩

theorem refreshSession_along (raw : String) (client : Client) :
    (refreshSession cfg raw client).Along (shaped (shape cfg)) (fun _ _ => True)
      (.init (.refreshSession raw client)) := by
  unfold refreshSession
  refine (rotate_along raw client).bind ?_
  rintro σ r ⟨root, found⟩
  cases r with
  | error e => trivial
  | ok pair =>
    obtain ⟨stored, now, rest, live, eq⟩ := found pair rfl
    refine ⟨guar_of_plain rfl, fun r _ => ?_⟩
    cases r with
    | error reason => trivial
    | ok user =>
      simp only [Prog.ret_bind]
      by_cases active : (!user.isActive) = true
      · simp only [if_pos active]
        refine ⟨guar_of_root root (.inr ⟨raw, client, rfl⟩), fun r _ => ?_⟩
        cases r <;> trivial
      · simp only [if_neg active]
        refine ⟨guar_of_root root ?_, fun r _ => ?_⟩
        · rintro raw' client' ⟨⟩
          exact ⟨stored, now, rest ++ _, live, by simp [shaped, tracing, Traced.next, eq]; rfl⟩
        · cases r <;> trivial

theorem ssoTokens_along (userId : Uuid) (username role : String) :
    (ssoTokens cfg userId username role).Along (shaped (shape cfg)) (fun _ _ => True)
      (.init (.ssoLogin userId username role)) := by
  refine ⟨guar_of_root rfl nofun, fun r _ => ?_⟩
  cases r with
  | error reason => trivial
  | ok accessToken =>
    simp only [Prog.ret_bind]
    refine Prog.Along.bind (issue_along rfl ?_ nofun) ?_
    · simp [shaped, tracing, Traced.next, Traced.init, Op.inserts]
    · rintro _ r -
      cases r <;> trivial

theorem revokeUserSessions_along (auth : AuthUser) (id : Uuid) :
    (revokeUserSessions auth id).Along (shaped (shape cfg)) (fun _ _ => True)
      (.init (.revokeUserSessions auth id)) := by
  unfold revokeUserSessions
  by_cases admin : auth.role ≠ .admin
  · simp only [if_pos admin]
    trivial
  · simp only [if_neg admin]
    refine ⟨guar_of_root rfl (.inl ⟨auth, id, rfl⟩), fun r _ => ?_⟩
    cases r <;> trivial

theorem forceChangePassword_along (req : ForceChangePasswordRequest) :
    (forceChangePassword req).Along (shaped (shape cfg)) (fun _ _ => True)
      (.init (.forceChangePassword req)) := by
  unfold forceChangePassword
  cases validatePasswordStrength req.newPassword with
  | error msg => trivial
  | ok _ =>
    refine ⟨guar_of_plain rfl, fun r _ => ?_⟩
    cases r with
    | error _ => trivial
    | ok found =>
      cases found with
      | none => trivial
      | some row =>
        obtain ⟨userId, hash, reset⟩ := row
        refine ⟨guar_of_root rfl (.inr ⟨req, hash, reset, rfl, rfl⟩), fun valid _ => ?_⟩
        cases valid with
        | false => trivial
        | true =>
          refine ⟨guar_of_plain rfl, fun r _ => ?_⟩
          cases r with
          | error _ => trivial
          | ok newHash =>
            refine ⟨guar_of_plain rfl, fun r _ => ?_⟩
            cases r <;> trivial

theorem logout_along (raw : String) :
    (logout cfg raw).Along (shaped (shape cfg)) (fun _ _ => True) (.init (.logout raw)) := by
  refine ⟨guar_of_plain rfl, fun r _ => ?_⟩
  cases r <;> trivial

theorem body_shaped (f : Fn) :
    (body cfg f).Along (shaped (shape cfg)) (fun _ _ => True) (.init f) := by
  cases f with
  | login req client => exact (login_along req client).bind fun _ _ _ => trivial
  | ssoLogin userId username role =>
    exact (ssoTokens_along userId username role).bind fun _ _ _ => trivial
  | refreshSession raw client => exact (refreshSession_along raw client).bind fun _ _ _ => trivial
  | logout raw => exact (logout_along raw).bind fun _ _ _ => trivial
  | revokeUserSessions auth id => exact (revokeUserSessions_along auth id).bind fun _ _ _ => trivial
  | forceChangePassword req => exact (forceChangePassword_along req).bind fun _ _ _ => trivial

end PatchManager.Auth
