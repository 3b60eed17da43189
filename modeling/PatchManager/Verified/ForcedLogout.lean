import PatchManager.Verified.Rotation
import Mathlib.Logic.Relation

/-! # Forced logout

`revoke_all_for_user` revokes what is in the table.  A refresh that has selected its token
before and goes on afterwards leaves a descendant that was not in the table; where no such
request is under way, nothing that descends from the account's tokens is ever valid again.

Main results:

* `forced_logout_complete`: the law under that condition.
* `survives_logout`: a refresh inserts its token after the sweep.
-/

namespace PatchManager.Auth

open PatchManager.Conc

variable {cfg : AuthSettings} {s t : State} {h h₁ h₂ : History} {userId : Uuid} {hash hash' : String}
  {e : Ev}

/-- `revoke_user_sessions` has revoked the account's tokens. -/
def Sweeps (userId : Uuid) (e : Ev) : Prop :=
  ∃ tid n auth id, e.label = .op tid (.updateTokens (.revokeAllForUser userId)) (.ok n) ∧
    ∃ task, e.pre.tasks[tid]? = some task ∧ task.root = .revokeUserSessions auth id

/-- `rotate` takes the token. -/
def RefreshToken.Valid (row : RefreshToken) (now : Time) : Prop :=
  row.revoked = false ∧ now ≤ row.expiresAt

/-- A refresh that presented the one token has inserted the other. -/
def Successor (cfg : AuthSettings) (h : History) (hash hash' : String) : Prop :=
  ∃ tid raw userId expiresAt client, Presents h tid raw ∧ cfg.sha256 raw = hash ∧
    ⟨.insertToken userId hash' expiresAt client, .ok ()⟩ ∈ exchanges tid h

/-- A chain of rotations of any length. -/
def Descends (cfg : AuthSettings) (h : History) : String → String → Prop :=
  Relation.ReflTransGen (Successor cfg h)

/-- After a sweep no token that descends from one issued to the account before is valid, and
    no refresh issues an access token for one. -/
structure LoggedOut (cfg : AuthSettings) (s : State) (h : History) : Prop where
  invalid : ∀ h₁ e h₂ userId hash hash', h = h₁ ++ e :: h₂ → Sweeps userId e →
    Issued s h₁ userId hash → Descends cfg h hash hash' → ∀ x ∈ e :: h₂,
      ∀ row ∈ x.post.world.tokens, row.tokenHash = hash' → ¬ row.Valid x.post.world.now
  refused : ∀ h₁ e h₂ userId hash raw, h = h₁ ++ e :: h₂ → Sweeps userId e →
    Issued s h₁ userId hash → Descends cfg h hash (cfg.sha256 raw) → ∀ x ∈ h₂, ∀ tid, Presents h tid raw →
      ∀ id username role ttlSecs key token,
        x.label ≠ .op tid (.issueAccessToken id username role ttlSecs key) (.ok token)

/-- At a sweep no refresh that has found a token of the account valid is under way. -/
def Settled (h : History) : Prop :=
  ∀ h₁ e h₂ userId, h = h₁ ++ e :: h₂ → Sweeps userId e →
    ∀ (tid : Nat) (task : Task Op Op.Resp Fn) (hash : String) (stored : StoredRefreshToken),
      e.pre.tasks[tid]? = some task → task.prog ≠ .ret () →
        ⟨.selectToken hash, .ok (some stored)⟩ ∈ exchanges tid h₁ → stored.userId = userId →
          stored.revoked = true

section runs

variable (initial : Initial s) (run : Run (accounts cfg).machine s h t)

include initial run

/-- The owner of the rows of an issued hash. -/
theorem owner_of_issued (issued : Issued s h userId hash) {h₁ h₂ : History} {x : Ev}
    (split : h = h₁ ++ x :: h₂) :
    ∀ row ∈ x.pre.world.tokens, row.tokenHash = hash → row.userId = userId := by
  intro row mem same
  subst split
  obtain ⟨before, -, -⟩ := run.split_event
  subst same
  exact issued_unique initial run issued (issued_of_mem before mem).append

/-- From the sweep on the tokens it was for are revoked. -/
theorem revoked_after {h₁ m₁ m₂ : History} {e : Ev} (split : h = h₁ ++ e :: (m₁ ++ m₂))
    (sweeps : Sweeps userId e) (issued : Issued s h₁ userId hash) {u : State}
    (rest : Run (accounts cfg).machine e.post m₁ u) :
    ∀ row ∈ u.world.tokens, row.tokenHash = hash → row.revoked = true := by
  have owner := owner_of_issued initial run (split ▸ issued.append) split
  subst split
  obtain ⟨before, step, -⟩ := run.split_event
  have issued' : Issued s (h₁ ++ [e]) userId hash := issued.append
  refine stays initial ((before.snoc step).append rest) rest issued'
    (P := fun row => row.revoked = true) ?_ ?_
  · rintro old row (rfl | ⟨now, rfl⟩) kept
    · exact kept
    · rfl
  · intro row mem same
    obtain ⟨tid, n, auth, id, label, -⟩ := sweeps
    rw [label] at step
    rw [revoked_of_update step] at mem
    obtain ⟨old, there, rfl⟩ := Sql.Update.mem_apply.mp mem
    by_cases live : ((TokenUpdate.revokeAllForUser userId).update e.pre.world.now).cond old = true
    · rw [Sql.Update.onRow_eq_assign live]
      rfl
    · rw [Sql.Update.onRow_eq_self (Bool.not_eq_true _ ▸ live)] at same ⊢
      simpa [TokenUpdate.update, TokenUpdate.cond, owner old there same] using live

/-- A refresh of such a token that acts after the sweep has found it valid before the sweep, so
    it was under way at the sweep. -/
theorem not_found_after (settled : Settled h) {h₁ m₁ m₂ : History} {e y : Ev}
    (split : h = h₁ ++ e :: (m₁ ++ y :: m₂)) (sweeps : Sweeps userId e) (issued : Issued s h₁ userId hash)
    {tid : Nat} {o : Op} {r : o.Resp} (label : y.label = .op tid o r) {raw : String}
    {stored : StoredRefreshToken} (same : cfg.sha256 raw = hash)
    (found : Found cfg raw stored (exchanges tid (h₁ ++ e :: m₁))) : False := by
  obtain ⟨now, rest, live, eq⟩ := found
  rw [same] at eq
  have second : exchanges tid (h₁ ++ e :: m₁) = [⟨Op.utcNow, now⟩] ++
      ⟨Op.selectToken hash, .ok (some stored)⟩ :: rest := eq
  obtain ⟨l₁, x, l₂, order, -, selects⟩ := exchanges_split second
  rcases split_cases order with ⟨-, rfl, -⟩ | ⟨m, rfl, rfl⟩ | ⟨m, rfl, rfl⟩
  · obtain ⟨_, _, _, _, label', -⟩ := sweeps
    rw [label'] at selects
    cases selects
  · -- after the sweep the token is found revoked
    have whole : h = h₁ ++ e :: (m ++ x :: (l₂ ++ y :: m₂)) := by simp [split]
    have revoked := fun u => revoked_after initial run whole sweeps issued (u := u)
    subst whole
    obtain ⟨-, -, after⟩ := run.split_event
    obtain ⟨between, step, -⟩ := after.split_event
    rw [selects] at step
    obtain ⟨row, mem, same, rfl⟩ := row_of_select step
    have gone := revoked _ between row mem same
    rw [show row.revoked = false from live] at gone
    cases gone
  · -- before the sweep it is found by a request that is under way at the sweep
    have whole : h = l₁ ++ x :: (m ++ e :: (m₁ ++ y :: m₂)) := by simp [split]
    have owner := owner_of_issued initial run (split ▸ issued.append) whole
    have unsettled := settled (l₁ ++ x :: m) e (m₁ ++ y :: m₂) userId (by simp [whole]) sweeps tid
    subst whole
    obtain ⟨-, step, later⟩ := run.split_event
    obtain ⟨between, swept, after⟩ := later.split_event
    obtain ⟨until_, acts, -⟩ := after.split_event
    rw [selects] at step
    obtain ⟨row, mem, same, eq⟩ := row_of_select step
    obtain ⟨root, next, w, at_, -, post⟩ := step.op_inv
    have there : x.post.tasks[tid]? = some ⟨root, next (.ok (some stored))⟩ := by
      rw [post, List.getElem?_set_self (List.getElem?_eq_some_iff.mp at_).1]
    obtain ⟨task, at_sweep, -⟩ := between.task_kept there
    obtain ⟨task', at_y, -, ended⟩ := (until_.cons swept).task_kept at_sweep
    rw [label] at acts
    obtain ⟨root', next', _, at_y', -⟩ := acts.op_inv
    have alive : task.prog ≠ .ret () := fun done => by
      have past := ended done
      rw [Option.some.inj (at_y.symm.trans at_y')] at past
      cases past
    have gone := unsettled task hash stored at_sweep alive
      (mem_exchanges (by simp) selects) (by rw [← eq]; exact owner row mem same)
    rw [live] at gone
    cases gone

/-- Successors of such tokens have been issued before the sweep. -/
theorem issued_of_descends (settled : Settled h) {h₁ h₂ : History} {e : Ev} (split : h = h₁ ++ e :: h₂)
    (sweeps : Sweeps userId e) (issued : Issued s h₁ userId hash) (descends : Descends cfg h hash hash') :
    Issued s h₁ userId hash' := by
  induction descends with
  | refl => exact issued
  | @tail hash' hash'' _ successor ih =>
    obtain ⟨tid, raw, owner, expiresAt, client, presents, same, inserts⟩ := successor
    obtain ⟨l₁, y, l₂, whole, label⟩ := exists_event_of_mem inserts
    obtain ⟨client', -, rotated⟩ := shape_of_presents initial run presents whole label
    obtain ⟨stored, n, found, rfl, -⟩ := rotated raw client' rfl
    rcases split_cases (split.symm.trans whole) with ⟨-, rfl, -⟩ | ⟨m, rfl, rfl⟩ | ⟨m, rfl, rfl⟩
    · obtain ⟨_, _, _, _, label', -⟩ := sweeps
      rw [label'] at label
      cases label
    · exact (not_found_after initial run settled split sweeps ih label same found).elim
    · -- the new token has the owner of the one presented
      obtain ⟨now, rest, -, eq⟩ := found
      rw [same] at eq
      have mem : ⟨Op.selectToken hash', .ok (some stored)⟩ ∈ exchanges tid l₁ := by simp [eq]
      have before : Run (accounts cfg).machine s l₁ y.pre := by
        subst whole
        exact run.split_event.1
      obtain ⟨p₁, x, p₂, order, -, row, there, hash_eq, rfl⟩ := select_of_mem before mem
      have earlier : h = p₁ ++ x :: (p₂ ++ y :: (m ++ e :: h₂)) := by simp [whole, order]
      have owner := owner_of_issued initial run (split ▸ ih.append) earlier row there hash_eq
      exact .inr ⟨y, by simp, tid, expiresAt, client, by rw [← owner]; exact label⟩

/-- Under the condition forced logout is complete. -/
theorem forced_logout_complete (settled : Settled h) : LoggedOut cfg s h := by
  refine ⟨?invalid, ?refused⟩
  case invalid =>
    intro h₁ e h₂ userId hash hash' split sweeps issued descends x mem row there same valid
    have issued' := issued_of_descends initial run settled split sweeps issued descends
    have after : ∃ m₁ m₂, h₂ = m₁ ++ m₂ ∧ Run (accounts cfg).machine e.post m₁ x.post := by
      rcases List.mem_cons.mp mem with rfl | later
      · exact ⟨[], h₂, rfl, .nil⟩
      · obtain ⟨m₁, m₂, rfl⟩ := List.append_of_mem later
        subst split
        obtain ⟨-, -, rest⟩ := run.split_event
        obtain ⟨between, step, -⟩ := rest.split_event
        exact ⟨m₁ ++ [x], m₂, by simp, between.snoc step⟩
    obtain ⟨m₁, m₂, rfl, rest⟩ := after
    have revoked := revoked_after initial run split sweeps issued' rest row there same
    rw [valid.1] at revoked
    cases revoked
  case refused =>
    intro h₁ e h₂ userId hash raw split sweeps issued descends x mem tid presents id username role
      ttlSecs key token label
    have issued' := issued_of_descends initial run settled split sweeps issued descends
    obtain ⟨m₁, m₂, rfl⟩ := List.append_of_mem mem
    have whole : h = (h₁ ++ e :: m₁) ++ x :: m₂ := by simp [split]
    obtain ⟨client, shape_of⟩ := shape_of_presents initial run presents whole label
    obtain ⟨stored, found⟩ := shape_of raw client rfl
    exact not_found_after initial run settled split sweeps issued' label rfl found

end runs

/-! ## Schedules -/

namespace Small

def admin : AuthUser := ⟨9, "root", .admin⟩

/-- The sessions of the account are revoked, by task `tid`. -/
def logsOut (tid : Nat) : List (Move player) := [.call (.revokeUserSessions admin 1), .run tid .ok]

/-- A refresh has been answered before the sweep; its token is refused afterwards. -/
def logoutAfter : List (Move player) :=
  .call (.refreshSession "r" client) :: selects 0 ++ replaces 0 "a" 3 ++ answers 0 ++ logsOut 1 ++
    .call (.refreshSession "a" client) :: selects 2

/-- A refresh has selected its token before the sweep and goes on after it. -/
def logoutBetween : List (Move player) :=
  .call (.refreshSession "r" client) :: selects 0 ++ logsOut 1 ++ replaces 0 "a" 3

/-- The step is a statement that revokes all tokens of an account. -/
def revokesAll (e : Ev) : Bool :=
  match e.label with
  | .op _ (.updateTokens (.revokeAllForUser _)) _ => true
  | _ => false

/-- The step is a sweep of account 1, by task 1. -/
def sweepsFirst (e : Ev) : Bool :=
  match e.label, ((e.pre.tasks[1]?).map Task.root : Option Fn) with
  | .op tid (.updateTokens (.revokeAllForUser id)) (.ok _), some (.revokeUserSessions _ _) =>
    tid == 1 && id == 1
  | _, _ => false

theorem sweeps_of_sweepsFirst {e : Ev} (sweeps : sweepsFirst e = true) : Sweeps 1 e := by
  obtain ⟨pre, label, post⟩ := e
  unfold sweepsFirst at sweeps
  split at sweeps
  · rename_i label_eq root_eq
    simp only [Bool.and_eq_true, beq_iff_eq] at sweeps
    obtain ⟨rfl, rfl⟩ := sweeps
    obtain ⟨task, at_, root⟩ := Option.map_eq_some_iff.mp root_eq
    exact ⟨1, _, _, _, label_eq, task, at_, root⟩
  · cases sweeps

def isOver (task : Task Op Op.Resp Fn) : Bool :=
  match task.prog with
  | .ret _ => true
  | _ => false

def isSelect (x : Exchange Op Op.Resp) : Bool :=
  match x.1 with
  | .selectToken _ => true
  | _ => false

/-- No task that has selected a token is under way at a sweep. -/
def settledAt (h₁ : History) (e : Ev) : Bool :=
  !revokesAll e || (List.range e.pre.tasks.length).all fun tid =>
    (e.pre.tasks[tid]?).any isOver || (exchanges tid h₁).all fun x => !isSelect x

theorem settled_of_checks {h : History} (checks : checksAll settledAt h = true) : Settled h := by
  intro h₁ e h₂ userId split sweeps tid task hash stored at_ alive selected _
  have test := test_of_checksAll checks split
  obtain ⟨_, _, _, _, label, -⟩ := sweeps
  have inside := (List.getElem?_eq_some_iff.mp at_).1
  simp only [settledAt, revokesAll, label, Bool.not_true, Bool.false_or, List.all_eq_true,
    List.mem_range, Bool.or_eq_true, Option.any_eq_true] at test
  rcases test tid inside with ⟨task', at', past⟩ | silent
  · obtain rfl : task = task' := Option.some.inj (at_.symm.trans at')
    unfold isOver at past
    split at past
    · rename_i value prog
      exact absurd prog alive
    · cases past
  · cases silent _ selected

/-- The step inserts a valid token "a" for the request 0. -/
def insertsValid (e : Ev) : Bool :=
  match e.label with
  | .op tid (.insertToken _ hash _ _) (.ok _) => tid == 0 && hash == "#a" &&
    e.post.world.tokens.any fun row =>
      row.tokenHash == "#a" && !row.revoked && decide (e.post.world.now ≤ row.expiresAt)
  | _ => false

theorem valid_of_insertsValid {e : Ev} (inserts : insertsValid e = true) :
    (∃ userId expiresAt client, e.label = .op 0 (.insertToken userId "#a" expiresAt client) (.ok ())) ∧
      ∃ row ∈ e.post.world.tokens, row.tokenHash = "#a" ∧ row.Valid e.post.world.now := by
  obtain ⟨pre, label, post⟩ := e
  unfold insertsValid at inserts
  split at inserts
  · rename_i label_eq
    simp only [Bool.and_eq_true, beq_iff_eq, List.any_eq_true, Bool.not_eq_true', decide_eq_true_eq]
      at inserts
    obtain ⟨⟨rfl, rfl⟩, row, mem, ⟨same, live⟩, unexpired⟩ := inserts
    exact ⟨⟨_, _, _, label_eq⟩, row, mem, same, live, unexpired⟩
  · cases inserts

end Small

theorem forced_logout_complete_after :
    LoggedOut Small.settings Small.start (Small.player.history Small.start Small.logoutAfter) := by
  have plays : (Small.player.play Small.start Small.logoutAfter).isSome = true := by decide +kernel
  exact forced_logout_complete Small.start_initial (Small.player.run_of_play plays)
    (Small.settled_of_checks (by decide +kernel))

/-- A refresh that overlaps the sweep leaves a valid token. -/
theorem survives_logout : ¬ ∀ (cfg : AuthSettings) (s t : State) (h : History), Initial s →
    Run (accounts cfg).machine s h t → LoggedOut cfg s h := by
  intro all
  have plays : (Small.player.play Small.start Small.logoutBetween).isSome = true := by decide +kernel
  have invalid := (all _ _ _ _ Small.start_initial (Small.player.run_of_play plays)).invalid
  have presents : Presents (Small.player.history Small.start Small.logoutBetween) 0 "r" :=
    Small.presents_of_calls (by decide +kernel)
  obtain ⟨e, at_e, sweeps⟩ := (Option.any_eq_true _ _).mp (show
    ((Small.player.history Small.start Small.logoutBetween)[4]?).any Small.sweepsFirst = true by
      decide +kernel)
  obtain ⟨x, at_x, inserts⟩ := (Option.any_eq_true _ _).mp (show
    ((Small.player.history Small.start Small.logoutBetween)[8]?).any Small.insertsValid = true by
      decide +kernel)
  obtain ⟨⟨userId, expiresAt, client, label⟩, row, mem, same, valid⟩ := Small.valid_of_insertsValid inserts
  have split := exists_split_of_getElem? at_e at_x (by decide)
  have successor : Successor Small.settings (Small.player.history Small.start Small.logoutBetween) "#r" "#a" :=
    ⟨0, "r", userId, expiresAt, client, presents, rfl, mem_exchanges (List.mem_of_getElem? at_x) label⟩
  exact invalid _ e _ 1 "#r" "#a" split (Small.sweeps_of_sweepsFirst sweeps)
    (.inl ⟨_, List.mem_singleton_self _, rfl, rfl⟩) (.single successor) x (by simp) row mem same valid

end PatchManager.Auth
