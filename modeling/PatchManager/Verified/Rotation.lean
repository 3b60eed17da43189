import PatchManager.Auth.Tokens

/-! # Rotation of refresh tokens

`rotate` selects a token and revokes it in two statements, and the `UPDATE` also succeeds on a
row that has been revoked in between.  Where it does not, a token is rotated once.

Main results:

* `rotation_single_use`: the law under that condition.
* `rotated_twice`: two requests select a token before either revokes it.
-/

namespace PatchManager.Auth

open PatchManager.Conc

variable {cfg : AuthSettings} {s t : State} {h : History}

/-- The call of `rotate` of request `tid`, which presents the token, has returned a new one. -/
def Rotated (cfg : AuthSettings) (h : History) (tid : Nat) (raw newToken : String) : Prop :=
  ∃ client userId l₁ l₂, (∃ e ∈ h, e.Starts tid (.refreshSession raw client)) ∧
    exchanges tid h = l₁ ++ l₂ ∧ (rotate cfg raw client).Returns l₁ (.ok (newToken, userId))

/-- A token is rotated by one request, and has one successor. -/
structure Rotation (cfg : AuthSettings) (h : History) : Prop where
  once : ∀ raw tid tid' newToken newToken', Rotated cfg h tid raw newToken →
    Rotated cfg h tid' raw newToken' → tid = tid'
  successor : ∀ raw tid tid' h₁ e h₂ e' h₃ userId userId' hash hash' expiresAt expiresAt' client client',
    Presents h tid raw → Presents h tid' raw → h = h₁ ++ e :: (h₂ ++ e' :: h₃) →
    e.label = .op tid (.insertToken userId hash expiresAt client) (.ok ()) →
    e'.label ≠ .op tid' (.insertToken userId' hash' expiresAt' client') (.ok ())

/-- The `UPDATE` of a rotation finds its row not revoked. -/
def RevokesLive (h : History) : Prop :=
  ∀ e ∈ h, ∀ tid id n, e.label = .op tid (.updateTokens (.revokeById id)) (.ok n) →
    ∃ row ∈ e.pre.world.tokens, row.id = id ∧ row.revoked = false

/-- Request `tid` has revoked, at `e`, the token it found under the hash. -/
def Revokes (h₁ : History) (e : Ev) (tid : Nat) (hash : String) : Prop :=
  ∃ stored, ⟨.selectToken hash, .ok (some stored)⟩ ∈ exchanges tid h₁ ∧
    ∃ n, e.label = .op tid (.updateTokens (.revokeById stored.id)) (.ok n)

theorem revokes_tid {h₁ : History} {e : Ev} {tid tid' : Nat} {hash : String}
    (revokes : Revokes h₁ e tid hash) (revokes' : Revokes h₁ e tid' hash) : tid = tid' := by
  obtain ⟨_, _, _, label⟩ := revokes
  obtain ⟨_, _, _, label'⟩ := revokes'
  rw [label] at label'
  simp only [Label.op.injEq] at label'
  exact label'.1

/-! ## Programs -/

/-- `rotate` returns a token after it has revoked the one presented. -/
theorem revokes_of_returns {raw newToken : String} {client : Client} {userId : Uuid} {l : Exchanges}
    (returns : (rotate cfg raw client).Returns l (.ok (newToken, userId))) :
    ∃ now stored n rest, l = [⟨.utcNow, now⟩, ⟨.selectToken (cfg.sha256 raw), .ok (some stored)⟩] ++
      ⟨.updateTokens (.revokeById stored.id), .ok n⟩ :: rest := by
  obtain ⟨now, _, rfl, selects⟩ := returns.op_inv
  obtain ⟨r, _, rfl, selected⟩ := selects.op_inv
  cases r with
  | error reason => cases selected.ret_inv.2
  | ok found =>
    cases found with
    | none => cases selected.ret_inv.2
    | some stored =>
      simp only [Prog.ret_bind] at selected
      by_cases gone : stored.revoked = true
      · rw [if_pos gone] at selected
        cases selected.ret_inv.2
      by_cases expired : stored.expiresAt < now
      · rw [if_neg gone, if_pos expired] at selected
        cases selected.ret_inv.2
      rw [if_neg gone, if_neg expired] at selected
      obtain ⟨r, rest, rfl, revoked⟩ := selected.op_inv
      cases r with
      | error reason => cases revoked.ret_inv.2
      | ok n => exact ⟨now, stored, n, rest, rfl⟩

theorem revokes_of_rotated {tid : Nat} {raw newToken : String} (rotated : Rotated cfg h tid raw newToken) :
    ∃ h₁ e h₂, h = h₁ ++ e :: h₂ ∧ Revokes h₁ e tid (cfg.sha256 raw) := by
  obtain ⟨client, userId, l₁, l₂, -, eq, returns⟩ := rotated
  obtain ⟨now, stored, n, rest, rfl⟩ := revokes_of_returns returns
  have split : exchanges tid h =
      [⟨.utcNow, now⟩, ⟨.selectToken (cfg.sha256 raw), .ok (some stored)⟩] ++
        ⟨Op.updateTokens (.revokeById stored.id), .ok n⟩ :: (rest ++ l₂) := by simpa using eq
  obtain ⟨h₁, e, h₂, split, before, label⟩ := exchanges_split split
  exact ⟨h₁, e, h₂, split, stored, by simp [before], n, label⟩

/-! ## Runs -/

section runs

variable (initial : Initial s) (run : Run (accounts cfg).machine s h t)

include initial run

/-- The row of a hash is the same at any two points. -/
theorem row_id_later {h₁ h₂ h₃ : History} {x y : Ev} (split : h = h₁ ++ x :: (h₂ ++ y :: h₃))
    {row row' : RefreshToken} (mem : row ∈ x.pre.world.tokens) (mem' : row' ∈ y.pre.world.tokens)
    (same : row'.tokenHash = row.tokenHash) : row'.id = row.id := by
  subst split
  obtain ⟨before, step, rest⟩ := run.split_event
  obtain ⟨between, -, -⟩ := rest.split_event
  have issued := issued_of_mem before mem
  refine stays initial (before.append (between.cons step)) (between.cons step) issued
    (P := fun r => r.id = row.id) ?_ ?_ row' mem' same
  · rintro old row (rfl | ⟨now, rfl⟩) kept <;> exact kept
  · intro other there hash
    have consistent := consistent_of_run before initial.consistent
    exact congrArg RefreshToken.id (List.inj_on_of_nodup_map consistent.tokenHashes there mem hash)

/-- What two requests find under one hash is one row. -/
theorem found_same {tid tid' : Nat} {hash : String} {stored stored' : StoredRefreshToken}
    (found : ⟨.selectToken hash, .ok (some stored)⟩ ∈ exchanges tid h)
    (found' : ⟨.selectToken hash, .ok (some stored')⟩ ∈ exchanges tid' h) : stored'.id = stored.id := by
  obtain ⟨l₁, x, l₂, eq, -, row, mem, same, rfl⟩ := select_of_mem run found
  obtain ⟨m₁, y, m₂, eq', -, row', mem', same', rfl⟩ := select_of_mem run found'
  change row'.id = row.id
  rcases split_cases (eq.symm.trans eq') with ⟨-, rfl, -⟩ | ⟨m, later, -⟩ | ⟨m, later, -⟩
  · subst eq
    obtain ⟨before, -, -⟩ := run.split_event
    have consistent := consistent_of_run before initial.consistent
    exact congrArg RefreshToken.id
      (List.inj_on_of_nodup_map consistent.tokenHashes mem' mem (same'.trans same.symm))
  · exact row_id_later initial run (by rw [eq, later]) mem mem' (same'.trans same.symm)
  · exact (row_id_later initial run (by rw [eq', later]) mem' mem (same.trans same'.symm)).symm

/-- Under the condition the row of a hash is revoked by one rotation. -/
theorem revoked_once (live : RevokesLive h) {h₁ h₂ h₃ : History} {e e' : Ev} {tid tid' : Nat}
    {hash : String} (split : h = h₁ ++ e :: (h₂ ++ e' :: h₃)) (revokes : Revokes h₁ e tid hash)
    (revokes' : Revokes (h₁ ++ e :: h₂) e' tid' hash) : False := by
  obtain ⟨stored, found, n, label⟩ := revokes
  obtain ⟨stored', found', n', label'⟩ := revokes'
  have same : stored'.id = stored.id := by
    have found_h : ⟨.selectToken hash, .ok (some stored)⟩ ∈ exchanges tid h := by
      rw [split]
      exact mem_exchanges_append found
    have found_h' : ⟨.selectToken hash, .ok (some stored')⟩ ∈ exchanges tid' h := by
      rw [split, ← List.cons_append, ← List.append_assoc]
      exact mem_exchanges_append found'
    exact found_same initial run found_h found_h'
  obtain ⟨row, there, id_eq, unrevoked⟩ := live e' (by simp [split]) tid' _ n' label'
  obtain ⟨first, there₀, id_eq₀, -⟩ := live e (by simp [split]) tid _ n label
  subst split
  obtain ⟨before, step, rest⟩ := run.split_event
  obtain ⟨between, -, -⟩ := rest.split_event
  have known : stored.id ∈ e.post.world.ids :=
    ids_grow step (id_eq₀ ▸ (consistent_of_run before initial.consistent).tokenKnown first there₀)
  -- from the first revocation on the row is revoked
  have revoked := stays_id between known (P := fun r => r.revoked = true) ?_ ?_ row there (id_eq.trans same)
  · rw [unrevoked] at revoked
    cases revoked
  · rintro old row (rfl | ⟨now, rfl⟩) kept
    · exact kept
    · rfl
  · intro other mem id_eq
    rw [label] at step
    rw [revoked_of_update step] at mem
    obtain ⟨old, there, rfl⟩ := Sql.Update.mem_apply.mp mem
    have id_old : old.id = stored.id := by
      rcases becomes_onRow (.revokeById stored.id) e.pre.world.now old with same | ⟨now, same⟩ <;>
        rw [same] at id_eq <;> exact id_eq
    rw [Sql.Update.onRow_eq_assign (by simp [TokenUpdate.update, TokenUpdate.cond, id_old])]
    rfl

/-- A refresh has revoked the token it presents when it inserts another. -/
theorem revokes_of_insert {h₁ h₂ : History} {e : Ev} {tid : Nat} {raw hash : String} {userId : Uuid}
    {expiresAt : Time} {client : Client} {r : Except String Unit} (presents : Presents h tid raw)
    (split : h = h₁ ++ e :: h₂) (label : e.label = .op tid (.insertToken userId hash expiresAt client) r) :
    ∃ l₁ x l₂, h₁ = l₁ ++ x :: l₂ ∧ Revokes l₁ x tid (cfg.sha256 raw) := by
  obtain ⟨client', -, rotated⟩ := shape_of_presents initial run presents split label
  obtain ⟨stored, n, -, -, mem⟩ := rotated raw client' rfl
  obtain ⟨l₁, x, l₂, rfl, label'⟩ := exists_event_of_mem mem
  have whole : h = l₁ ++ x :: (l₂ ++ e :: h₂) := by simp [split]
  obtain ⟨client'', shape_of⟩ := shape_of_presents initial run presents whole label'
  obtain ⟨raw', client₀, now, stored', same, eq, -, id_eq⟩ := shape_of
  obtain ⟨rfl, -⟩ := Fn.refreshSession.inj same
  exact ⟨l₁, x, l₂, rfl, stored', by simp [eq], n, by rw [label', id_eq]⟩

/-- Rotations of one token are by one request. -/
theorem revokes_once (live : RevokesLive h) {h₁ h₂ h₁' h₂' : History} {e e' : Ev} {tid tid' : Nat}
    {hash : String} (split : h = h₁ ++ e :: h₂) (split' : h = h₁' ++ e' :: h₂')
    (revokes : Revokes h₁ e tid hash) (revokes' : Revokes h₁' e' tid' hash) : tid = tid' := by
  rcases split_cases (split.symm.trans split') with ⟨rfl, rfl, -⟩ | ⟨m, later, rfl⟩ | ⟨m, later, rfl⟩
  · exact revokes_tid revokes revokes'
  · exact (revoked_once initial run live (by rw [split, later]) revokes revokes').elim
  · exact (revoked_once initial run live (by rw [split', later]) revokes' revokes).elim

/-- Under the condition rotation is single use. -/
theorem rotation_single_use (live : RevokesLive h) : Rotation cfg h := by
  refine ⟨?once, ?successor⟩
  case once =>
    intro raw tid tid' newToken newToken' rotated rotated'
    obtain ⟨h₁, e, h₂, split, revokes⟩ := revokes_of_rotated rotated
    obtain ⟨h₁', e', h₂', split', revokes'⟩ := revokes_of_rotated rotated'
    exact revokes_once initial run live split split' revokes revokes'
  case successor =>
    intro raw tid tid' h₁ e h₂ e' h₃ userId userId' hash hash' expiresAt expiresAt' client client'
      presents presents' split label label'
    have whole : h = (h₁ ++ e :: h₂) ++ e' :: h₃ := by simp [split]
    obtain ⟨l₁, x, l₂, rfl, revokes⟩ := revokes_of_insert initial run presents split label
    obtain ⟨l₁', x', l₂', eq', revokes'⟩ := revokes_of_insert initial run presents' whole label'
    have first : h = l₁ ++ x :: (l₂ ++ e :: (h₂ ++ e' :: h₃)) := by simp [split]
    have second : h = l₁' ++ x' :: (l₂' ++ e' :: h₃) := by rw [whole, eq']; simp
    obtain rfl := revokes_once initial run live first second revokes revokes'
    -- one request inserts once
    obtain ⟨-, fresh⟩ := generated_of_insert initial run whole label' rfl
    have mem := mem_exchanges (h := l₁ ++ x :: l₂ ++ e :: h₂) (by simp) label
    cases fresh _ mem

end runs

/-! ## Schedules -/

namespace Small

def settings : AuthSettings := { sha256 := ("#" ++ ·), signingKeyPem := "key", accessTtlSecs := 900 }

abbrev player : Player (accounts settings).machine := (accounts settings).player

def user : User :=
  { id := 1, username := "ann", displayName := "Ann", role := .operator, authProvider := .localUser
    passwordHash := some "hash", totpSecretEncrypted := none, totpSecretNonce := none
    mfaEnabled := false, isActive := true, forcePasswordReset := false, failedLoginAttempts := 0
    lockedUntil := none, lastLoginAt := none }

def client : Client := ⟨none, none⟩

/-- One account that is signed in with the refresh token "r". -/
def start : State :=
  ⟨{ users := [user], tokens := [newToken 2 1 "#r" 3600000000 client], ids := [1, 2], hashes := ["#r"]
     now := 0 }, []⟩

theorem start_initial : Initial start where
  tasks := rfl
  consistent :=
    { userIds := by decide
      userKnown := by simp [start, user]
      tokenHashes := by decide
      tokenKnown := by simp [start, newToken] }
  hashKnown := by simp [start, newToken]

/-- Two requests present the token. -/
def refreshes : List (Move player) :=
  [.call (.refreshSession "r" client), .call (.refreshSession "r" client)]

/-- A request selects the token. -/
def selects (tid : Nat) : List (Move player) := [.run tid .ok, .run tid .ok]

/-- A request revokes the token and inserts another. -/
def replaces (tid : Nat) (token : String) (id : Uuid) : List (Move player) :=
  [.run tid .ok, .run tid (.text token), .run tid .ok, .run tid (.id id)]

/-- The end of a refresh. -/
def answers (tid : Nat) : List (Move player) := [.run tid .ok, .run tid (.text "access")]

def inTurn : List (Move player) :=
  refreshes ++ selects 0 ++ replaces 0 "a" 3 ++ answers 0 ++ selects 1

def overlapping : List (Move player) :=
  refreshes ++ selects 0 ++ selects 1 ++ replaces 0 "a" 3 ++ replaces 1 "b" 4

/-- The step is a revocation by identifier that finds no row it could revoke. -/
def revokesDead (e : Ev) : Bool :=
  match e.label with
  | .op _ (.updateTokens (.revokeById id)) _ =>
    !e.pre.world.tokens.any fun row => row.id == id && !row.revoked
  | _ => false

theorem revokesLive_of_checks {h : History} (checks : h.all (fun e => !revokesDead e) = true) :
    RevokesLive h := by
  intro e mem tid id n label
  have test := List.all_eq_true.mp checks e mem
  simp only [revokesDead, label, Bool.not_not, List.any_eq_true, Bool.and_eq_true, beq_iff_eq,
    Bool.not_eq_true'] at test
  exact test

/-- The step is the insertion of a token by request `tid`. -/
def insertsBy (tid : Nat) (e : Ev) : Bool :=
  match e.label with
  | .op other (.insertToken _ _ _ _) (.ok _) => other == tid
  | _ => false

theorem label_of_insertsBy {tid : Nat} {e : Ev} (inserts : insertsBy tid e = true) :
    ∃ userId hash expiresAt client,
      e.label = .op tid (.insertToken userId hash expiresAt client) (.ok ()) := by
  obtain ⟨pre, label, post⟩ := e
  cases label with
  | op other o r =>
    cases o with
    | insertToken userId hash expiresAt client =>
      cases r with
      | ok _ =>
        obtain rfl := eq_of_beq inserts
        exact ⟨userId, hash, expiresAt, client, rfl⟩
      | error => cases inserts
    | _ => cases inserts
  | _ => cases inserts

/-- The step is the call of a refresh with the token "r", as task `tid`. -/
def callsRefresh (tid : Nat) (e : Ev) : Bool :=
  match e.label with
  | .enter (.refreshSession raw _) => raw == "r" && tid == e.pre.tasks.length
  | _ => false

theorem presents_of_calls {tid : Nat} {h : History} (calls : h.any (callsRefresh tid) = true) :
    Presents h tid "r" := by
  obtain ⟨⟨pre, label, post⟩, mem, calls⟩ := List.any_eq_true.mp calls
  cases label with
  | enter f =>
    cases f with
    | refreshSession raw client =>
      simp only [callsRefresh, Bool.and_eq_true, beq_iff_eq] at calls
      obtain ⟨rfl, position⟩ := calls
      exact ⟨_, mem, client, position, .inr rfl⟩
    | _ => cases calls
  | _ => cases calls

end Small

theorem rotation_single_use_inTurn :
    Rotation Small.settings (Small.player.history Small.start Small.inTurn) := by
  have plays : (Small.player.play Small.start Small.inTurn).isSome = true := by decide +kernel
  exact rotation_single_use Small.start_initial (Small.player.run_of_play plays)
    (Small.revokesLive_of_checks (by decide +kernel))

/-- Two requests that overlap each get a successor of the token. -/
theorem rotated_twice : ¬ ∀ (cfg : AuthSettings) (s t : State) (h : History), Initial s →
    Run (accounts cfg).machine s h t → Rotation cfg h := by
  intro all
  have plays : (Small.player.play Small.start Small.overlapping).isSome = true := by decide +kernel
  have successor := (all _ _ _ _ Small.start_initial (Small.player.run_of_play plays)).successor
  obtain ⟨e, at_e, first⟩ := (Option.any_eq_true _ _).mp (show
    ((Small.player.history Small.start Small.overlapping)[9]?).any (Small.insertsBy 0) = true by
      decide +kernel)
  obtain ⟨f, at_f, second⟩ := (Option.any_eq_true _ _).mp (show
    ((Small.player.history Small.start Small.overlapping)[13]?).any (Small.insertsBy 1) = true by
      decide +kernel)
  obtain ⟨_, _, _, _, label⟩ := Small.label_of_insertsBy first
  obtain ⟨_, _, _, _, label'⟩ := Small.label_of_insertsBy second
  exact successor "r" 0 1 _ e _ f _ _ _ _ _ _ _ _ _ (Small.presents_of_calls (by decide +kernel))
    (Small.presents_of_calls (by decide +kernel)) (exists_split_of_getElem? at_e at_f (by decide)) label label'

end PatchManager.Auth
