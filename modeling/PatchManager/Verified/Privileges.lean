import PatchManager.Auth.Tokens
import PatchManager.Verified.Permissions

/-! # Who is an administrator, and who has changed an account

Main results, for every run of the service:

* `admins_granted`: an administrator was one at the start or was made one by an administrator.
* `changes_entitled`: whose request it is that changes a column of an account or removes it.
* `tokens_backed`: what an access token has been signed after.
-/

namespace PatchManager.Accounts

open PatchManager.Conc PatchManager.Auth

variable {cfg : FrontSettings} {s t : State} {h h₁ h₂ : History} {e : Ev} {tid : Nat} {id : Uuid}
  {l : Label Ops Resps Fn}

/-! ## Steps -/

/-- What one step does to the accounts and to the tokens that have been signed. -/
inductive Moves (w : World) : Label Ops Resps Fn → World → Prop
  | signIn {tid n : Nat} {u : UserUpdate} {w' : World} (users : w'.1.users = u.update.apply w.1.users)
      (rest : w'.2 = w.2) : Moves w (.op tid (.inl (.updateUsers u)) (.ok n)) w'
  | sign {tid : Nat} {userId : Uuid} {username role key token : String} {ttl : Int} :
      Moves w (.op tid (.inl (.issueAccessToken userId username role ttl key)) (.ok token))
        (w.1, { w.2 with issued := { token, userId, username, role } :: w.2.issued })
  | update {tid n : Nat} {u : AccountUpdate} : Moves w (.op tid (.inr (.updateAccount u)) (.ok n)) (w.update u)
  | insert {tid : Nat} {new : NewUser} {id : Uuid} :
      Moves w (.op tid (.inr (.insertUser new)) (.ok id)) (w.insert new id)
  | delete {tid n : Nat} {id : Uuid} : Moves w (.op tid (.inr (.deleteUser id)) (.ok n)) (w.delete id)
  | aside {l : Label Ops Resps Fn} {w' : World} (users : w'.1.users = w.1.users)
      (issued : w'.2.issued = w.2.issued) : Moves w l w'

theorem moves_of_auth {w w₁ : Auth.World} {d : Data} {o : Auth.Op} {r : o.Resp} {a : Auth.Answer}
    (done : Auth.execute cfg.sha256 w o a = some (r, w₁)) : Moves (w, d) (.op tid (.inl o) r) (w₁, d.signed o r) := by
  have moved : Auth.Moves cfg.toAuthSettings w (.op tid o r) w₁ := moves_of_execute done
  cases o with
  | updateUsers u =>
    cases moved with
    | users => exact .signIn rfl rfl
    | idle => exact .aside rfl rfl
  | issueAccessToken userId username role ttl key =>
    cases moved with
    | idle =>
      cases r with
      | error reason => exact .aside rfl rfl
      | ok token => exact .sign
  | _ => cases moved <;> exact .aside rfl rfl

/-- Giving out a text leaves the accounts alone. -/
theorem give_users {w w' : World} {text text' : String} (given : give w text = some (text', w')) :
    w'.1 = w.1 ∧ w'.2.issued = w.2.issued := by
  simp only [give, Data.give, Option.map_eq_some_iff, Option.ite_none_left_eq_some] at given
  obtain ⟨d, ⟨-, eq⟩, pair⟩ := given
  cases eq
  cases pair
  exact ⟨rfl, rfl⟩

theorem moves_of_own {w w' : World} {o : Op} {r : o.Resp} {a : Answer}
    (done : execute w o a = some (r, w')) : Moves w (.op tid (.inr o) r) w' := by
  unfold execute at done
  split at done
  all_goals first
    | (cases done; done)
    | (cases done; exact .aside rfl rfl)
    | (cases done; exact .delete)
    | (obtain ⟨auth, -, pair⟩ := Option.map_eq_some_iff.mp done; cases pair; exact .aside rfl rfl)
    | (have same := give_users done; exact .aside (by rw [same.1]) same.2)
    | (obtain ⟨-, pair⟩ := Option.ite_none_right_eq_some.mp done; cases pair; exact .insert)
    | (obtain ⟨-, pair⟩ := Option.ite_none_right_eq_some.mp done; cases pair; exact .update)

/-- What happens besides the requests leaves the accounts alone. -/
theorem change_users (w : World) (d : Change) :
    (change w d).1.users = w.1.users ∧ (change w d).2.issued = w.2.issued := by
  cases d with
  | purgeSession state =>
    simp only [change]
    split <;> exact ⟨rfl, rfl⟩
  | purgeHandoff code =>
    simp only [change]
    split <;> exact ⟨rfl, rfl⟩
  | _ => exact ⟨rfl, rfl⟩

theorem moves_of_step (step : Step (front cfg).machine s l t) : Moves s.world l t.world := by
  rcases Service.world_cases step with ⟨tid, o, r, a, rfl, done⟩ | ⟨d, rfl, moved⟩ | ⟨rfl, moved⟩ |
      ⟨-, same⟩
  · cases o with
    | inl o =>
      cases a with
      | plain a =>
        obtain ⟨⟨r', w₁⟩, executed, rest⟩ := Option.bind_eq_some_iff.mp done
        obtain ⟨-, pair⟩ := Option.ite_none_right_eq_some.mp rest
        obtain ⟨rfl, moved⟩ := Prod.mk.inj (Option.some.inj pair)
        rw [← moved]
        exact moves_of_auth executed
      | _ => cases done
    | inr o => exact moves_of_own done
  · rw [moved]
    have same := change_users s.world d
    exact .aside same.1 same.2
  · rw [moved]
    exact .aside rfl rfl
  · rw [same]
    exact .aside rfl rfl

/-! ## What has been read -/

section reads

theorem asked_inv {o : Auth.Op} {r : o.Resp} (step : Step (front cfg).machine s (.op tid (.inl o) r) t) :
    ∃ a w₁, Auth.execute cfg.sha256 s.world.1 o a = some (r, w₁) := by
  obtain ⟨_, _, _, -, ⟨a, done⟩, -⟩ := step.op_inv
  cases a with
  | plain a =>
    obtain ⟨⟨r', w₁⟩, executed, rest⟩ := Option.bind_eq_some_iff.mp done
    obtain ⟨-, pair⟩ := Option.ite_none_right_eq_some.mp rest
    obtain ⟨rfl, -⟩ := Prod.mk.inj (Option.some.inj pair)
    exact ⟨a, w₁, executed⟩
  | _ => cases done

theorem own_inv {o : Op} {r : o.Resp} (step : Step (front cfg).machine s (.op tid (.inr o) r) t) :
    ∃ a, execute s.world o a = some (r, t.world) := by
  obtain ⟨_, _, _, -, done, rfl⟩ := step.op_inv
  exact done

theorem read_localUser {username : String} {u : User}
    (step : Step (front cfg).machine s (.op tid (.inl (.selectLocalUser username)) (.ok (some u))) t) :
    u ∈ s.world.1.users := by
  obtain ⟨a, w₁, executed⟩ := asked_inv step
  have found : s.world.1.localUser username = some u := by
    cases a <;> simp [Auth.execute] at executed <;> exact executed.1
  exact List.mem_of_find?_eq_some found

theorem read_user {key : Uuid} {u : User}
    (step : Step (front cfg).machine s (.op tid (.inl (.selectUser key)) (.ok u)) t) :
    u ∈ s.world.1.users ∧ u.id = key := by
  obtain ⟨a, w₁, executed⟩ := asked_inv step
  have found : s.world.1.user key = some u := by
    cases a <;> simp [Auth.execute] at executed <;> exact executed.1
  exact Sql.lookup_some found

theorem read_token {hash : String} {stored : StoredRefreshToken}
    (step : Step (front cfg).machine s (.op tid (.inl (.selectToken hash)) (.ok (some stored))) t) :
    ∃ row ∈ s.world.1.tokens, row.tokenHash = hash ∧ stored = row.stored := by
  obtain ⟨a, w₁, executed⟩ := asked_inv step
  have found : (s.world.1.token hash).map RefreshToken.stored = some stored := by
    cases a <;> simp [Auth.execute] at executed <;> simpa using executed.1
  obtain ⟨row, at_, rfl⟩ := Option.map_eq_some_iff.mp found
  obtain ⟨there, eq⟩ := Sql.lookup_some at_
  exact ⟨row, there, eq, rfl⟩

/-- The account of an address, as single sign-on reads it. -/
theorem read_ssoUser {email : String} {provider : Option AuthProvider} {v : DbUserForSso}
    (step : Step (front cfg).machine s (.op tid (.inr (.selectSsoUser email provider)) (.ok (some v))) t) :
    ∃ u ∈ s.world.1.users, v = forSso u ∧ ∃ c ∈ s.world.2.contacts, c.id = u.id ∧ c.email = email := by
  obtain ⟨a, executed⟩ := own_inv step
  have found : (ssoUser s.world email provider).map forSso = some v := by
    cases a with
    | plain a => cases a <;> simp [execute] at executed <;> simpa using executed.1
    | _ => simpa [execute] using (congrArg (Option.map Prod.fst) executed)
  obtain ⟨u, at_, rfl⟩ := Option.map_eq_some_iff.mp found
  simp only [ssoUser, bind, Option.bind_eq_some_iff] at at_
  obtain ⟨c, contact, row, user, selected⟩ := at_
  obtain ⟨-, rfl⟩ : _ ∧ row = u := by simpa using selected
  obtain ⟨there, address⟩ := Sql.lookup_some contact
  obtain ⟨mem, owner⟩ := Sql.lookup_some user
  exact ⟨row, mem, rfl, c, there, owner.symm, address⟩

/-- A request goes on as the user whom a token has been signed for. -/
theorem read_bearer {token : String} {auth : AuthUser}
    (step : Step (front cfg).machine s (.op tid (.inr (.requireAuth token)) (.ok auth)) t) :
    ∃ i ∈ s.world.2.issued, i.token = token ∧ i.userId = auth.userId ∧ i.username = auth.username ∧
      UserRole.fromStr i.role = some auth.role := by
  obtain ⟨a, executed⟩ := own_inv step
  have found : bearer s.world.2 token = some auth := by
    cases a with
    | plain a => cases a <;> simp [execute] at executed <;> exact executed.1
    | _ => simp [execute] at executed; exact executed.1
  simp only [bearer, bind, Option.bind_eq_some_iff] at found
  obtain ⟨i, issued, role, parsed, eq⟩ := found
  cases eq
  exact ⟨i, List.mem_of_find?_eq_some issued, by simpa using List.find?_some issued, rfl, rfl, parsed⟩

end reads

/-! ## Rows -/

theorem AccountUpdate.keeps {Column : Type} {f : User → Column} (c : AccountUpdate) (now : Time)
    (same : ∀ u, f (c.assign now u) = f u) : (c.update now).Keeps f := fun u _ => same u

theorem AccountUpdate.keeps_id (c : AccountUpdate) (now : Time) : (c.update now).Keeps User.id := by
  intro u _
  cases c <;> rfl

theorem AccountUpdate.keeps_username (c : AccountUpdate) (now : Time) : (c.update now).Keeps User.username := by
  intro u _
  cases c <;> rfl

theorem UserUpdate.keeps_role (c : UserUpdate) : c.update.Keeps User.role := by
  intro u _
  cases c <;> rfl

/-- Only an edit changes a role, and to the one it asks for. -/
theorem AccountUpdate.role_cases (c : AccountUpdate) (now : Time) (u : User) :
    ((c.update now).onRow u).role = u.role ∨ ∃ req id role, c = .edit req id ∧
      req.role.map parseRole = some role ∧ u.id = id ∧ ((c.update now).onRow u).role = role := by
  unfold Sql.Update.onRow
  split
  · rename_i cond
    cases c with
    | edit req id =>
      cases asked : req.role.map parseRole with
      | none =>
        left
        simp [AccountUpdate.update, AccountUpdate.assign, asked]
      | some role =>
        right
        refine ⟨req, id, role, rfl, asked, by simpa [AccountUpdate.update, AccountUpdate.cond] using cond, ?_⟩
        simp [AccountUpdate.update, AccountUpdate.assign, asked]
    | _ => exact .inl rfl
  · exact .inl rfl

theorem user_update (w : World) (c : AccountUpdate) (id : Uuid) :
    (w.update c).1.user id = (w.1.user id).map (c.update w.1.now).onRow :=
  Sql.lookup_apply (c.keeps_id w.1.now)

theorem user_insert {w : World} {new : NewUser} {other : Uuid} {u : User} (there : w.1.user id = some u) :
    (w.insert new other).1.user id = some u :=
  Sql.lookup_append there

theorem user_delete (w : World) (id : Uuid) : (w.delete id).1.user id = none := by
  simp [World.delete, Auth.World.user, Sql.lookup, List.find?_eq_none]

theorem user_delete_of_ne {w : World} {other : Uuid} (ne : id ≠ other) : (w.delete other).1.user id = w.1.user id := by
  unfold Auth.World.user Sql.lookup
  rw [World.delete, List.find?_filter]
  congr 1
  funext u
  by_cases owner : u.id = id
  · simp [owner, ne]
  · simp [owner]

/-! ## Administrators -/

theorem permitted_at {o : Ops} {r : Resps o} (run : Run (front cfg).machine s (h₁ ++ e :: h₂) t)
    (start : s.tasks = []) (label : e.label = .op tid o r) : permits (exchanges tid h₁) o :=
  run.permitted start (fun _ _ _ called => called.1) (fun _ entry => body_permitted entry) label

/-- What makes an account one of an administrator. -/
inductive Grants : (o : Ops) → Resps o → Uuid → Prop
  | create {new : NewUser} {id : Uuid} (admin : new.role = .admin) :
      Grants (.inr (.insertUser new)) (.ok id) id
  | edit {req : UpdateUserRequest} {id : Uuid} {n : Nat} (admin : req.role.map parseRole = some .admin) :
      Grants (.inr (.updateAccount (.edit req id))) (.ok n) id

/-- The account was one of an administrator at the start, or has been made one by a request that came
    with the token of an administrator's account. -/
inductive Granted (s : State) : History → Uuid → Prop
  | initial {h : History} {u : User} (there : u ∈ s.world.1.users) (admin : u.role = .admin) :
      Granted s h u.id
  | outstanding {h : History} {i : Issued} (there : i ∈ s.world.2.issued) (admin : i.role = "admin") :
      Granted s h i.userId
  | byAdmin {h₁ h₂ : History} {e : Ev} {tid : Nat} {o : Ops} {r : Resps o} {id : Uuid} {auth : AuthUser}
      (label : e.label = .op tid o r) (grants : Grants o r id) (bearer : Bearer (exchanges tid h₁) auth)
      (admin : auth.role = .admin) (granter : Granted s h₁ auth.userId) : Granted s (h₁ ++ e :: h₂) id

theorem Granted.append (granted : Granted s h id) (more : History) : Granted s (h ++ more) id := by
  cases granted with
  | initial there admin => exact .initial there admin
  | outstanding there admin => exact .outstanding there admin
  | byAdmin label grants bearer admin granter =>
    rw [List.append_assoc]
    exact .byAdmin label grants bearer admin granter

theorem asStr_admin {role : UserRole} (same : role.asStr = "admin") : role = .admin := by
  cases role with
  | admin => rfl
  | _ => simp [UserRole.asStr] at same

theorem fromStr_admin {text : String} (parsed : UserRole.fromStr text = some .admin) : text = "admin" := by
  unfold UserRole.fromStr at parsed
  split at parsed
  · assumption
  · split at parsed
    · cases parsed
    · split at parsed <;> cases parsed

/-- What holds of the accounts and the tokens at one point of a run. -/
structure AllGranted (s : State) (h : History) (t : State) : Prop where
  users : ∀ u ∈ t.world.1.users, u.role = .admin → Granted s h u.id
  issued : ∀ i ∈ t.world.2.issued, i.role = "admin" → Granted s h i.userId

section granted

variable (run : Run (front cfg).machine s (h ++ [e]) t) (start : s.tasks = [])
  (before : ∀ h₁ e' h₂, h ++ [e] = h₁ ++ e' :: h₂ → AllGranted s h₁ e'.pre)

include run before

/-- An administrator's token is one of a granted account. -/
theorem granted_of_bearer {auth : AuthUser} (bearer : Bearer (exchanges tid h) auth) (admin : auth.role = .admin) :
    Granted s h auth.userId := by
  obtain ⟨token, mem⟩ := bearer
  obtain ⟨h₁, e', h₂, rfl, label⟩ := exists_event_of_mem mem
  have step := run.step_of_mem (e := e') (by simp)
  rw [label] at step
  obtain ⟨i, there, -, owner, -, parsed⟩ := read_bearer step
  rw [admin] at parsed
  rw [← owner]
  exact ((before h₁ e' (h₂ ++ [e]) (by simp)).issued i there (fromStr_admin parsed)).append _

/-- An account that was read as an administrator's is a granted one. -/
theorem granted_of_read {o : Ops} {r : Resps o} {u : User} (mem : ⟨o, r⟩ ∈ exchanges tid h)
    (read : ∀ s t : State, Step (front cfg).machine s (.op tid o r) t → u ∈ s.world.1.users)
    (admin : u.role = .admin) : Granted s h u.id := by
  obtain ⟨h₁, e', h₂, rfl, label⟩ := exists_event_of_mem mem
  have step := run.step_of_mem (e := e') (by simp)
  rw [label] at step
  exact ((before h₁ e' (h₂ ++ [e]) (by simp)).users u (read _ _ step) admin).append _

theorem granted_of_known (known : Known (exchanges tid h) id "admin") : Granted s h id := by
  generalize role_ : "admin" = role at known
  cases known with
  | signedIn signed inside =>
    cases signed with
    | login read =>
      exact granted_of_read run before (inside _ _ read) (fun _ _ => read_localUser) (asStr_admin role_.symm)
    | refresh _ _ _ _ _ read =>
      exact granted_of_read run before (inside _ _ read) (fun _ _ step => (read_user step).1) (asStr_admin role_.symm)
  | @sso who provider v _ read =>
    obtain ⟨h₁, e', h₂, rfl, label⟩ := exists_event_of_mem read
    have step := run.step_of_mem (e := e') (by simp)
    rw [label] at step
    obtain ⟨u, there, rfl, -⟩ := read_ssoUser step
    exact ((before h₁ e' (h₂ ++ [e]) (by simp)).users u there (asStr_admin role_.symm)).append _
  | created => simp at role_

include start

/-- One step: what makes an account an administrator's is asked for by an administrator. -/
theorem allGranted_step : AllGranted s (h ++ [e]) t := by
  obtain ⟨whole, step, rfl⟩ := run.snoc_inv
  have old := before h e [] rfl
  have kept : ∀ {id}, Granted s h id → Granted s (h ++ [e]) id := fun granted => granted.append [e]
  have byAdmin : ∀ {tid o r id}, e.label = .op tid o r → Grants o r id → AdminBearer (exchanges tid h) →
      Granted s (h ++ [e]) id := by
    rintro tid o r id label grants ⟨auth, bearer, admin⟩
    exact .byAdmin label grants bearer admin (granted_of_bearer run before bearer admin)
  have shown : ∀ {tid o r}, e.label = .op tid o r → permits (exchanges tid h) o := fun label =>
    permitted_at (show Run _ s (h ++ e :: []) _ from run) start label
  have moves := moves_of_step step
  refine ⟨fun u mem admin => ?users, fun i mem admin => ?issued⟩
  case users =>
    generalize label : e.label = l at moves
    generalize e.post.world = w at moves mem
    cases moves with
    | signIn users rest =>
      rw [users] at mem
      obtain ⟨u₀, there, rfl⟩ := Sql.Update.mem_apply.mp mem
      rw [(UserUpdate.keeps_role _).onRow] at admin
      rw [(UserUpdate.keeps_id _).onRow]
      exact kept (old.users u₀ there admin)
    | @update tid n c =>
      obtain ⟨u₀, there, rfl⟩ := Sql.Update.mem_apply.mp mem
      rw [(c.keeps_id _).onRow]
      rcases c.role_cases e.pre.world.1.now u₀ with same | ⟨req, id, role, rfl, asked, owner, given⟩
      · exact kept (old.users u₀ there (same ▸ admin))
      · have grants : Grants (.inr (.updateAccount (.edit req id))) (.ok n) u₀.id := by
          rw [owner]
          exact .edit (by rw [asked, ← given, admin])
        obtain shows | ⟨-, none_, -⟩ := shown label
        · exact byAdmin label grants shows
        · simp [none_] at asked
    | @insert tid new id =>
      rcases List.mem_append.mp mem with there | last
      · exact kept (old.users u there admin)
      · obtain rfl := List.mem_singleton.mp last
        have asked : new.role = .admin := admin
        obtain ⟨shows, -⟩ | ⟨reporter, -⟩ := shown label
        · exact byAdmin label (.create asked) shows
        · simp [asked] at reporter
    | delete => exact kept (old.users u (List.mem_of_mem_filter mem) admin)
    | sign => exact kept (old.users u mem admin)
    | aside users => exact kept (old.users u (users ▸ mem) admin)
  case issued =>
    generalize label : e.label = l at moves
    generalize e.post.world = w at moves mem
    cases moves with
    | @sign tid userId username role key token ttl =>
      rcases List.mem_cons.mp mem with rfl | there
      · obtain rfl : role = "admin" := admin
        exact kept (granted_of_known run before (shown label))
      · exact kept (old.issued i there admin)
    | signIn _ rest => exact kept (old.issued i (rest ▸ mem) admin)
    | aside _ issued => exact kept (old.issued i (issued ▸ mem) admin)
    | _ => exact kept (old.issued i mem admin)

end granted

/-- Administrators, and the tokens of administrators, go back to those there were at the start. -/
theorem admins_granted (run : Run (front cfg).machine s h t) (start : s.tasks = []) : AllGranted s h t := by
  refine run.preserves_since fun h t run before => ?_
  rcases List.eq_nil_or_concat h with rfl | ⟨h, e, rfl⟩
  · obtain rfl := run.nil_inv
    exact ⟨fun u there admin => .initial there admin, fun i there admin => .outstanding there admin⟩
  · rw [List.concat_eq_append] at run before ⊢
    exact allGranted_step run start before

/-! ## Changes of accounts -/

/-- The columns of an account that its owner, an administrator or the provider can be after. -/
inductive Column where
  | username
  | displayName
  | role
  | isActive
  | forcePasswordReset
  | passwordHash
  | secondFactor
  | provider

def Column.Same : Column → User → User → Prop
  | username, u, v => v.username = u.username
  | displayName, u, v => v.displayName = u.displayName
  | role, u, v => v.role = u.role
  | isActive, u, v => v.isActive = u.isActive
  | forcePasswordReset, u, v => v.forcePasswordReset = u.forcePasswordReset
  | passwordHash, u, v => v.passwordHash = u.passwordHash
  | secondFactor, u, v => v.totpSecretEncrypted = u.totpSecretEncrypted ∧
    v.totpSecretNonce = u.totpSecretNonce ∧ v.mfaEnabled = u.mfaEnabled
  | provider, u, v => v.authProvider = u.authProvider

/-- The request of an administrator. -/
def ByAdmin (s : State) (h : History) (tid : Nat) : Prop :=
  ∃ auth, Bearer (exchanges tid h) auth ∧ auth.role = .admin ∧ Granted s h auth.userId

/-- The hash of the account at one moment; the empty text stands for none. -/
def HashIn (w : Auth.World) (id : Uuid) (hash : String) : Prop :=
  (∃ u ∈ w.users, u.id = id ∧ u.passwordHash.getD "" = hash) ∨ w.user id = none ∧ hash = ""

/-- The request has shown a password that fits a hash the account had since it began. -/
def ByPassword (h : History) (tid : Nat) (id : Uuid) : Prop :=
  ∃ password hash, asked (.verifyPassword id password hash) true ∈ exchanges tid h ∧
    ∃ e ∈ h, (∃ o r, e.label = .op tid o r) ∧ HashIn e.pre.world.1 id hash

/-- The provider has named the address that the account, which was active, had since the request began. -/
def ByAddress (h : History) (tid : Nat) (id : Uuid) : Prop :=
  ∃ who, Identified (exchanges tid h) who ∧ ∃ e ∈ h, (∃ o r, e.label = .op tid o r) ∧
    ∃ u ∈ e.pre.world.1.users, u.id = id ∧ u.isActive = true ∧
      ∃ c ∈ e.pre.world.2.contacts, c.id = id ∧ c.email = who.email

/-- The account the schema is seeded with, before it has a password. -/
def Unclaimed (u : User) : Prop :=
  u.username = "admin" ∧ u.authProvider = .localUser ∧ u.passwordHash.any isPlaceholder = true

/-- Whose request may change the column of the account. -/
def Entitled (s : State) (h : History) (tid : Nat) (u : User) : Column → Prop
  | .username => False
  | .displayName => ByAdmin s h tid ∨ OwnBearer (exchanges tid h) u.id
  | .role | .isActive => ByAdmin s h tid
  | .forcePasswordReset => ByAdmin s h tid ∨ ByPassword h tid u.id
  | .passwordHash => ByAdmin s h tid ∨ ByPassword h tid u.id ∨ Unclaimed u
  | .secondFactor => ByAdmin s h tid ∨ OwnBearer (exchanges tid h) u.id ∧
    (ByPassword h tid u.id ∨ ∃ ciphertext nonce, CodeProved (exchanges tid h) u.id ciphertext nonce)
  | .provider => ByAddress h tid u.id

/-- Whose request removes an account: one of another administrator. -/
def Removed (s : State) (h : History) (e : Ev) (id : Uuid) : Prop :=
  ∃ tid n auth, e.label = .op tid (.inr (.deleteUser id)) (.ok n) ∧ Bearer (exchanges tid h) auth ∧
    auth.role = .admin ∧ auth.userId ≠ id ∧ Granted s h auth.userId

/-- What an event does to the accounts that are there. -/
structure ChangesEntitled (s : State) (h : History) (e : Ev) : Prop where
  removed : ∀ id u, e.pre.world.1.user id = some u → e.post.world.1.user id = none → Removed s h e id
  changed : ∀ id u v c, e.pre.world.1.user id = some u → e.post.world.1.user id = some v →
    ¬ Column.Same c u v → ∃ tid o r, e.label = .op tid o r ∧ Entitled s h tid u c

section entitled

variable (run : Run (front cfg).machine s h t)

include run

theorem bearer_granted (start : s.tasks = []) {auth : AuthUser} (bearer : Bearer (exchanges tid h) auth)
    (admin : auth.role = .admin) : Granted s h auth.userId := by
  obtain ⟨token, mem⟩ := bearer
  obtain ⟨h₁, e, h₂, rfl, label⟩ := exists_event_of_mem mem
  obtain ⟨earlier, step, -⟩ := run.split_event
  rw [label] at step
  obtain ⟨i, there, -, owner, -, parsed⟩ := read_bearer step
  rw [admin] at parsed
  rw [← owner]
  exact ((admins_granted earlier start).issued i there (fromStr_admin parsed)).append _

theorem byPassword_of_proved (proved : PasswordProved (exchanges tid h) id) : ByPassword h tid id := by
  obtain ⟨password, hash, read, verified⟩ := proved
  refine ⟨password, hash, verified, ?_⟩
  obtain ⟨found, mem, rfl⟩ | ⟨username, found, reset, mem, rfl⟩ := read
  · obtain ⟨h₁, e, h₂, rfl, label⟩ := exists_event_of_mem mem
    have step := run.step_of_mem (e := e) (by simp)
    rw [label] at step
    obtain ⟨a, done⟩ := own_inv step
    have read : (e.pre.world.1.user id).bind User.passwordHash = found := by
      cases a with
      | plain a => cases a <;> simp [execute] at done <;> exact done.1
      | _ => simp [execute] at done; exact done.1
    refine ⟨e, by simp, ⟨_, _, label⟩, ?_⟩
    cases row : e.pre.world.1.user id with
    | none =>
      rw [row] at read
      exact .inr ⟨row, by simp [← read]⟩
    | some u =>
      rw [row] at read
      obtain ⟨there, rfl⟩ := Sql.lookup_some row
      exact .inl ⟨u, there, rfl, by rw [← read]; rfl⟩
  · obtain ⟨h₁, e, h₂, rfl, label⟩ := exists_event_of_mem mem
    have step := run.step_of_mem (e := e) (by simp)
    rw [label] at step
    obtain ⟨a, w₁, done⟩ := asked_inv step
    have read : ∃ u, e.pre.world.1.localUser username = some u ∧
        (u.id, u.passwordHash, u.forcePasswordReset) = (id, found, reset) := by
      cases a <;> simp [Auth.execute] at done <;> simpa using done.1
    obtain ⟨u, row, eq⟩ := read
    cases eq
    exact ⟨e, by simp, ⟨_, _, label⟩, .inl ⟨u, List.mem_of_find?_eq_some row, rfl, rfl⟩⟩

theorem byAddress_of_proved (proved : AddressProved (exchanges tid h) id) : ByAddress h tid id := by
  obtain ⟨who, provider, v, identified, mem, rfl, active⟩ := proved
  refine ⟨who, identified, ?_⟩
  obtain ⟨h₁, e, h₂, rfl, label⟩ := exists_event_of_mem mem
  have step := run.step_of_mem (e := e) (by simp)
  rw [label] at step
  obtain ⟨u, there, rfl, c, contact, owner, address⟩ := read_ssoUser step
  exact ⟨e, by simp, ⟨_, _, label⟩, u, there, rfl, active, c, contact, owner, address⟩

end entitled

theorem Column.same_refl (c : Column) (u : User) : c.Same u u := by
  cases c with
  | secondFactor => exact ⟨rfl, rfl, rfl⟩
  | _ => rfl

/-- A statement of the requests that sign in changes a password at most. -/
theorem UserUpdate.changes {c : UserUpdate} {u : User} {column : Column}
    (differs : ¬ column.Same u (c.update.onRow u)) :
    (∃ newHash, c = .setPassword newHash u.id) ∧ (column = .passwordHash ∨ column = .forcePasswordReset) := by
  unfold Sql.Update.onRow at differs
  split at differs
  · rename_i cond
    have owner : u.id = c.id := by simpa [UserUpdate.update] using cond
    cases c with
    | setPassword newHash id =>
      refine ⟨⟨newHash, by rw [owner]; rfl⟩, ?_⟩
      cases column with
      | passwordHash => exact .inl rfl
      | forcePasswordReset => exact .inr rfl
      | secondFactor => exact absurd ⟨rfl, rfl, rfl⟩ differs
      | _ => exact absurd rfl differs
    | _ =>
      cases column with
      | secondFactor => exact absurd ⟨rfl, rfl, rfl⟩ differs
      | _ => exact absurd rfl differs
  · exact absurd (column.same_refl u) differs

section entitled

variable (run : Run (front cfg).machine s (h ++ e :: h₂) t) (start : s.tasks = [])

include run start

/-- Where one of the other statements changes a column, the request has shown what it takes. -/
theorem entitled_of_update {c : AccountUpdate} {n : Nat} {u : User} {column : Column} {now : Time}
    (label : e.label = .op tid (.inr (.updateAccount c)) (.ok n))
    (differs : ¬ column.Same u ((c.update now).onRow u)) : Entitled s h tid u column := by
  obtain ⟨earlier, -, -⟩ := run.split_event
  have shown : permitsUpdate (exchanges tid h) c := permitted_at run start label
  have admin : AdminBearer (exchanges tid h) → ByAdmin s h tid := fun ⟨auth, bearer, admin⟩ =>
    ⟨auth, bearer, admin, bearer_granted earlier start bearer admin⟩
  unfold Sql.Update.onRow at differs
  split at differs
  · rename_i cond
    change c.cond u = true at cond
    cases c with
    | edit req id =>
      obtain rfl : u.id = id := by simpa [AccountUpdate.cond] using cond
      obtain shows | ⟨own, role, isActive, reset⟩ := shown
      · cases column with
        | displayName => exact .inl (admin shows)
        | role | isActive => exact admin shows
        | forcePasswordReset => exact .inl (admin shows)
        | secondFactor => exact absurd ⟨rfl, rfl, rfl⟩ differs
        | _ => exact absurd rfl differs
      · -- all that is left to an owner is the name that is shown
        cases column with
        | displayName => exact .inr own
        | secondFactor => exact absurd ⟨rfl, rfl, rfl⟩ differs
        | _ => simp [Column.Same, AccountUpdate.update, AccountUpdate.assign, role, isActive, reset] at differs
    | changePassword newHash id =>
      obtain rfl : u.id = id := by simpa [AccountUpdate.cond] using cond
      have proved := byPassword_of_proved earlier shown.2.1
      cases column with
      | forcePasswordReset => exact .inr proved
      | passwordHash => exact .inr (.inl proved)
      | secondFactor => exact absurd ⟨rfl, rfl, rfl⟩ differs
      | _ => exact absurd rfl differs
    | resetPassword newHash force id =>
      cases column with
      | forcePasswordReset => exact .inl (admin shown.1)
      | passwordHash => exact .inl (admin shown.1)
      | secondFactor => exact absurd ⟨rfl, rfl, rfl⟩ differs
      | _ => exact absurd rfl differs
    | enableMfa ciphertext nonce id =>
      obtain rfl : u.id = id := by simpa [AccountUpdate.cond] using cond
      obtain ⟨auth, secret, code, bearer, owner, checked, encrypted⟩ := shown
      cases column with
      | secondFactor =>
        exact .inr ⟨⟨auth, bearer, owner⟩, .inr ⟨ciphertext, nonce, auth, secret, code, bearer, owner,
          checked, encrypted⟩⟩
      | _ => exact absurd rfl differs
    | disableMfa id =>
      obtain rfl : u.id = id := by simpa [AccountUpdate.cond] using cond
      cases column with
      | secondFactor =>
        obtain shows | ⟨own, proved⟩ := shown
        · exact .inl (admin shows)
        · exact .inr ⟨own, .inl (byPassword_of_proved earlier proved)⟩
      | _ => exact absurd rfl differs
    | linkProvider provider azureOid oidcSub id =>
      obtain rfl : u.id = id := by simpa [AccountUpdate.cond] using cond
      cases column with
      | provider => exact byAddress_of_proved earlier shown.1
      | secondFactor => exact absurd ⟨rfl, rfl, rfl⟩ differs
      | _ => exact absurd rfl differs
    | recordSsoLogin azureOid oidcSub id =>
      cases column with
      | secondFactor => exact absurd ⟨rfl, rfl, rfl⟩ differs
      | _ => exact absurd rfl differs
    | bootstrapPassword newHash =>
      cases column with
      | passwordHash => exact .inr (.inr (by simpa [Unclaimed, AccountUpdate.cond, and_assoc] using cond))
      | secondFactor => exact absurd ⟨rfl, rfl, rfl⟩ differs
      | _ => exact absurd rfl differs
  · exact absurd (column.same_refl u) differs

end entitled

/-! ## Tokens -/

/-- What a request has found of the account and of whoever asks, when it signs a token. -/
inductive Backed (h : History) (tid : Nat) : Uuid → String → Prop
  | login {e : Ev} {username password : String} {u : User} (mem : e ∈ h)
      (read : e.label = .op tid (.inl (.selectLocalUser username)) (.ok (some u)))
      (there : u ∈ e.pre.world.1.users) (active : u.isActive = true) (settled : u.forcePasswordReset = false)
      (proved : asked (.verifyPassword u.id password (u.passwordHash.getD "")) true ∈ exchanges tid h)
      (second : u.mfaEnabled = true → ∃ secret code,
        asked (.verifyCode u.username secret code) true ∈ exchanges tid h) :
      Backed h tid u.id u.role.asStr
  | refresh {e e' : Ev} {row : RefreshToken} {now : Time} {n : Nat} {u : User} (mem : e ∈ h)
      (read : e.label = .op tid (.inl (.selectToken row.tokenHash)) (.ok (some row.stored)))
      (there : row ∈ e.pre.world.1.tokens) (live : row.revoked = false)
      (clock : asked .utcNow now ∈ exchanges tid h) (unexpired : now ≤ row.expiresAt)
      (used : asked (.updateTokens (.revokeById row.id)) (.ok n) ∈ exchanges tid h) (mem' : e' ∈ h)
      (read' : e'.label = .op tid (.inl (.selectUser row.userId)) (.ok u))
      (there' : u ∈ e'.pre.world.1.users) (owner : u.id = row.userId) (active : u.isActive = true) :
      Backed h tid u.id u.role.asStr
  | sso {e : Ev} {who : Identity} {provider : Option AuthProvider} {u : User} {c : Contact}
      (identified : Identified (exchanges tid h) who) (mem : e ∈ h)
      (read : e.label = .op tid (.inr (.selectSsoUser who.email provider)) (.ok (some (forSso u))))
      (there : u ∈ e.pre.world.1.users) (active : u.isActive = true)
      (contact : c ∈ e.pre.world.2.contacts) (owner : c.id = u.id) (address : c.email = who.email) :
      Backed h tid u.id u.role.asStr
  | created {e : Ev} {who : Identity} {new : NewUser} {id : Uuid}
      (identified : Identified (exchanges tid h) who) (mem : e ∈ h)
      (insert : e.label = .op tid (.inr (.insertUser new)) (.ok id)) (address : new.email = who.email)
      (reporter : new.role = .reporter) : Backed h tid id "reporter"

theorem backed_of_known (run : Run (front cfg).machine s h t) {role : String}
    (known : Known (exchanges tid h) id role) : Backed h tid id role := by
  have at_ : ∀ {o : Ops} {r : Resps o}, ⟨o, r⟩ ∈ exchanges tid h →
      ∃ e ∈ h, e.label = .op tid o r ∧ Step (front cfg).machine e.pre (.op tid o r) e.post := by
    intro o r mem
    obtain ⟨h₁, e, h₂, rfl, label⟩ := exists_event_of_mem mem
    exact ⟨e, by simp, label, label ▸ run.step_of_mem (by simp)⟩
  cases known with
  | signedIn signed inside =>
    cases signed with
    | login read proved active settled second =>
      obtain ⟨e, mem, label, step⟩ := at_ (inside _ _ read)
      refine .login mem label (read_localUser step) active settled (inside _ _ proved) fun enabled => ?_
      obtain ⟨secret, code, passed⟩ := second enabled
      exact ⟨secret, code, inside _ _ passed⟩
    | refresh found live clock unexpired used read active =>
      obtain ⟨e, mem, label, step⟩ := at_ (inside _ _ found)
      obtain ⟨e', mem', label', step'⟩ := at_ (inside _ _ read)
      obtain ⟨row, there, rfl, rfl⟩ := read_token step
      obtain ⟨there', owner⟩ := read_user step'
      exact .refresh mem label there live (inside _ _ clock) unexpired (inside _ _ used) mem' label' there'
        owner active
  | sso identified read active =>
    obtain ⟨e, mem, label, step⟩ := at_ read
    obtain ⟨u, there, rfl, c, contact, owner, address⟩ := read_ssoUser step
    exact .sso identified mem label there active contact owner address
  | created identified inserted address reporter =>
    obtain ⟨e, mem, label, step⟩ := at_ inserted
    exact .created identified mem label address reporter

namespace Small

def settings : FrontSettings where
  sha256 := fun text => text
  signingKeyPem := "key"
  accessTtlSecs := 900
  ssoCallbackUrl := "https://pm/sso"
  urlencode := fun text => text
  codeChallenge := fun text => text

def admin : User :=
  NewUser.row { username := "admin", displayName := "Administrator", email := "admin@localhost", role := .admin
                authProvider := .localUser, passwordHash := some "hash" } 1

def start : State :=
  ⟨({ users := [admin], ids := [1], now := 0 },
    { contacts := [⟨1, "admin@localhost", none, none⟩] }), []⟩

/-- The administrator signs in and creates a second one. -/
def secondAdmin : List (Move (front settings).player) :=
  [.call (.auth (.login ⟨"admin", "Password1!", none⟩ ⟨none, none⟩)), .run 0 (.plain .ok),
    .run 0 (.plain (.truth true)), .run 0 (.plain (.text "jwt")), .run 0 (.plain (.text "refresh")),
    .run 0 (.plain .ok), .run 0 (.plain (.id 2)), .run 0 (.plain .ok), .run 0 (.plain .ok),
    .call (.createUser "jwt" "second" none "second@localhost" "Admin" "Password2!"), .run 1 (.plain .ok),
    .run 1 (.plain (.text "other")), .run 1 (.plain (.id 3)),
    .call (.updateUser "jwt" 3 ⟨none, none, some "reporter", none, none⟩), .run 2 (.plain .ok),
    .run 2 (.plain .ok)]

abbrev history : History := (front settings).player.history start secondAdmin

/-- A change of a role. -/
def changesRole (e : Ev) : Bool :=
  e.pre.world.1.users.any fun u => (e.post.world.1.user u.id).any fun v => v.role != u.role

end Small

theorem admins_granted_secondAdmin :
    AllGranted Small.start Small.history (Player.last Small.start Small.history) := by
  have plays : ((front Small.settings).player.play Small.start Small.secondAdmin).isSome = true := by
    decide +kernel
  exact admins_granted ((front Small.settings).player.run_of_play plays) rfl

end PatchManager.Accounts
