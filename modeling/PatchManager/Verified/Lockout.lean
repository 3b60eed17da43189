import PatchManager.Auth.Lock
import PatchManager.Conc.Serve

/-! # The end of a lockout

A login that finds an expired lock takes it off the row and sets the counter to zero; a password
that does not match is then counted on from the value that was read before.

Main results:

* `tolerates_iff`: over any sequence of logins and waits, fewer than five wrong passwords after the
  end of a lockout do not lock the account again, unless the first password given then is wrong.
* `relocked`: the fifth wrong password, half an hour, and one more.
-/

namespace PatchManager.Auth.Lockout

open PatchManager.Conc

/-! ## Counters -/

/-- The failures of an account and its lock. -/
abbrev Counters := Nat × Option Time

def locked (c : Counters) (now : Time) : Prop := ∃ until_ ∈ c.2, now < until_

def expired (c : Counters) (now : Time) : Prop := ∃ until_ ∈ c.2, until_ ≤ now

/-- What a statement makes of the counters of its account. -/
def writes : UserUpdate → Counters → Counters
  | .clearLock _, _ => (0, none)
  | .lockAccount attempts lockUntil _, _ => (attempts, some lockUntil)
  | .countFailure attempts _, c => (attempts, c.2)
  | .recordLogin _ _, _ => (0, none)
  | .setPassword _ _, _ => (0, none)

theorem assign_counters (s : UserUpdate) (user : User) : (s.assign user).counters = writes s user.counters := by
  cases s <;> rfl

def counters (u : Uuid) (w : World) : Option Counters := (w.user u).map User.counters

section

variable {cfg : AuthSettings} {u : Uuid} {w w' : World} {user : User} {s : UserUpdate}
  {l : List (Exchange Op Op.Resp)}

def updated (s : UserUpdate) (w : World) : World := { w with users := s.update.apply w.users }

theorem counters_updated :
    counters u (updated s w) = if s.id = u then (counters u w).map (writes s) else counters u w := by
  have row : (updated s w).user u = (w.user u).map s.update.onRow := Sql.lookup_apply s.keeps_id
  unfold counters
  rw [row, Option.map_map]
  split
  next own =>
    rw [Option.map_map]
    refine Option.map_congr fun user mem => ?_
    have key := (Sql.lookup_some mem).2
    rw [Function.comp, Sql.Update.onRow_eq_assign (by simp [UserUpdate.update, key, own])]
    exact assign_counters s user
  next other =>
    refine Option.map_congr fun user mem => ?_
    have key := (Sql.lookup_some mem).2
    rw [Function.comp, Sql.Update.onRow_eq_self (by simpa [UserUpdate.update, key] using Ne.symm other)]

theorem counters_own {c : Counters} (own : s.id = u) (found : counters u w = some c) :
    counters u (updated s w) = some (writes s c) := by
  rw [counters_updated, if_pos own, found]
  rfl

theorem counters_other (other : u ≠ s.id) : counters u (updated s w) = counters u w := by
  rw [counters_updated, if_neg (Ne.symm other)]

/-! ## Statements -/

/-- The accounts have identifiers of their own. -/
def Keyed (w : World) : Prop := (w.users.map User.id).Nodup

theorem keyed_updated (keyed : Keyed w) : Keyed (updated s w) := by
  unfold Keyed updated
  rwa [map_apply s.keeps_id]

theorem execute_updateUsers {a : Answer} {r : Except String Nat}
    (executed : (accounts cfg).execute w (.updateUsers s) a = some (r, w')) :
    (∃ reason, r = .error reason ∧ w' = w) ∨ ∃ n, r = .ok n ∧ w' = updated s w := by
  cases a with
  | failed reason =>
    cases executed
    exact .inl ⟨reason, rfl, rfl⟩
  | ok | text | truth | id =>
    cases executed
    exact .inr ⟨_, rfl, rfl⟩

def Op.updates : Op → Bool
  | .updateUsers _ => true
  | _ => false

/-- What else is asked for leaves the accounts as they are. -/
theorem execute_keeps {o : Op} {a : Answer} {r : o.Resp} (executed : (accounts cfg).execute w o a = some (r, w'))
    (reads : Op.updates o = false) : w'.users = w.users ∧ w'.now = w.now := by
  have moves : Moves cfg w (.op 0 o r) w' := moves_of_execute executed
  cases moves with
  | users => cases reads
  | _ => exact ⟨rfl, rfl⟩

/-! ## One login -/

/-- The password of the account has not matched. -/
def misses (u : Uuid) : Exchange Op Op.Resp → Bool
  | ⟨.verifyPassword id _ _, false⟩ => id == u
  | _ => false

/-- A statement on the accounts has failed. -/
def refuses : Exchange Op Op.Resp → Bool
  | ⟨.updateUsers _, .error _⟩ => true
  | _ => false

/-- What a failure that is recorded makes of the counters. -/
def attempted (failures : Nat) (now : Time) : Counters :=
  if 5 ≤ failures + 1 then (failures + 1, some (now + 30 * microsPerMinute)) else (failures + 1, none)

/-- What a login makes of the counters of an account. -/
inductive Written (u : Uuid) (now : Time) (l : List (Exchange Op Op.Resp)) (before : Counters) : Counters → Prop
  | kept (right : l.any (misses u) = false) : Written u now l before before
  | reset (open_ : ¬ locked before now) (right : l.any (misses u) = false) : Written u now l before (0, none)
  | unrecorded {after : Counters} (open_ : ¬ locked before now) (wrong : l.any (misses u) = true)
    (lost : l.any refuses = true) (same : after = (0, none) ∨ after = before ∧ before.2 = none) :
    Written u now l before after
  | recorded (open_ : ¬ locked before now) (wrong : l.any (misses u) = true) (stored : l.any refuses = false) :
    Written u now l before (attempted before.1 now)

theorem checkLock_ends {r : Except SessionError Unit}
    (serves : Serves (accounts cfg) w (checkLock user) l (some r) w') :
    l.any (misses u) = false ∧
    ((r.isOk = false ∧ w' = w) ∨
      (r = .ok () ∧ l.any refuses = false ∧
        ((user.lockedUntil = none ∧ w' = w) ∨
          (expired user.counters w.now ∧ w' = updated (.clearLock user.id) w)))) := by
  unfold checkLock at serves
  cases lock : user.lockedUntil with
  | none =>
    rw [lock] at serves
    obtain ⟨rfl, rfl, rfl⟩ := serves.ret_returned
    exact ⟨rfl, .inr ⟨rfl, rfl, .inl ⟨rfl, rfl⟩⟩⟩
  | some lockedUntil =>
    rw [lock] at serves
    obtain ⟨_, now, w₁, _, clock, timed, rfl⟩ := serves.op_returned
    cases clock
    change Serves _ _ (if w.now < lockedUntil then _ else _) _ _ _ at timed
    split at timed
    next early =>
      obtain ⟨rfl, rfl, rfl⟩ := timed.ret_returned
      exact ⟨rfl, .inl ⟨rfl, rfl⟩⟩
    next late =>
      obtain ⟨a, answer, w₂, _, executed, last, rfl⟩ := timed.op_returned
      obtain ⟨reason, rfl, rfl⟩ | ⟨n, rfl, rfl⟩ := execute_updateUsers executed
      · obtain ⟨rfl, rfl, rfl⟩ := last.ret_returned
        exact ⟨rfl, .inl ⟨rfl, rfl⟩⟩
      · obtain ⟨rfl, rfl, rfl⟩ := last.ret_returned
        exact ⟨rfl, .inr ⟨rfl, rfl, .inr ⟨⟨lockedUntil, lock, Int.not_lt.mp late⟩, rfl⟩⟩⟩

theorem recordFailure_ends {r : Except SessionError LoginResponse}
    (serves : Serves (accounts cfg) w (recordFailure user) l (some r) w') :
    l.any (misses u) = false ∧
    ((l.any refuses = true ∧ w' = w) ∨
      (l.any refuses = false ∧ ∃ s, s.id = user.id ∧ w' = updated s w ∧
        ∀ c, c.2 = none → writes s c = attempted user.failedLoginAttempts w.now)) := by
  simp only [recordFailure] at serves
  have attempt : attempted user.failedLoginAttempts w.now = if 5 ≤ user.failedLoginAttempts + 1 then _ else _ := rfl
  split at serves
  next many =>
    obtain ⟨_, now, w₁, _, clock, timed, rfl⟩ := serves.op_returned
    cases clock
    obtain ⟨a, answer, w₂, _, executed, last, rfl⟩ := timed.op_returned
    obtain ⟨reason, rfl, rfl⟩ | ⟨n, rfl, rfl⟩ := execute_updateUsers executed
    · obtain ⟨rfl, rfl, rfl⟩ := last.ret_returned
      exact ⟨rfl, .inl ⟨rfl, rfl⟩⟩
    · obtain ⟨rfl, rfl, rfl⟩ := last.ret_returned
      refine ⟨rfl, .inr ⟨rfl, _, rfl, rfl, fun c _ => ?_⟩⟩
      rw [attempt, if_pos many]
      rfl
  next few =>
    obtain ⟨a, answer, w₂, _, executed, last, rfl⟩ := serves.op_returned
    obtain ⟨reason, rfl, rfl⟩ | ⟨n, rfl, rfl⟩ := execute_updateUsers executed
    · obtain ⟨rfl, rfl, rfl⟩ := last.ret_returned
      exact ⟨rfl, .inl ⟨rfl, rfl⟩⟩
    · obtain ⟨rfl, rfl, rfl⟩ := last.ret_returned
      refine ⟨rfl, .inr ⟨rfl, _, rfl, rfl, fun c free => ?_⟩⟩
      rw [attempt, if_neg few]
      exact congrArg (Prod.mk _) free

/-- What `login` does with an account that is not locked and a password that has matched. -/
def signIn (cfg : AuthSettings) (req : LoginRequest) (client : Client) (user : User) :
    Proc (Except SessionError LoginResponse) := do
  if !user.isActive then return .error .accountDisabled
  else if user.forcePasswordReset then return .error .passwordResetRequired
  else
    match ← checkMfa user req.totpCode with
    | .error e => return .error e
    | .ok () => startSession cfg user client

/-- What is asked for after the password: no other password, and of the accounts only the update
    of a login that has succeeded. -/
def Later (id : Uuid) : Op → Prop
  | .verifyPassword _ _ _ => False
  | .updateUsers s => ∃ now, s = .recordLogin now id
  | _ => True

theorem later_of_checksMfa {id : Uuid} {o : Op} (asked : o.checksMfa = true) : Later id o := by
  cases o with
  | loadKey | decrypt | verifyCode => trivial
  | _ => cases asked

theorem startSession_within (client : Client) :
    (startSession cfg user client).Within (Later user.id) (fun _ => False) fun _ => False := by
  refine .op trivial fun r => ?_
  cases r with
  | error reason => exact .ret _
  | ok accessToken =>
    refine Prog.Within.bind (p := issue cfg user.id client) ?_ fun r => ?_
    · refine .op trivial fun token => .op trivial fun now => .op trivial fun r => ?_
      cases r <;> exact .ret _
    · cases r with
      | error e => exact .ret _
      | ok token =>
        refine .op trivial fun now => .op ⟨now, rfl⟩ fun r => ?_
        cases r <;> exact .ret _

theorem signIn_within (req : LoginRequest) (client : Client) :
    (signIn cfg req client user).Within (Later user.id) (fun _ => False) fun _ => False := by
  refine .ite (.ret _) (.ite (.ret _) (.bind ?_ fun r => ?_))
  · exact (checkMfa_asks user req.totpCode).mono (fun _ => later_of_checksMfa) (fun _ => id) fun _ => id
  · cases r with
    | error e => exact .ret _
    | ok _ => exact startSession_within client

theorem signIn_ends {req : LoginRequest} {client : Client} {r : Except SessionError LoginResponse}
    (serves : Serves (accounts cfg) w (signIn cfg req client user) l (some r) w') :
    l.any (misses u) = false ∧ w'.now = w.now ∧ (Keyed w → Keyed w') ∧
      (counters u w' = counters u w ∨ user.id = u ∧ counters u w' = (counters u w).map fun _ => (0, none)) := by
  have within : (signIn cfg req client user).Within (Later user.id) (fun _ => False) fun _ => False :=
    signIn_within req client
  refine ⟨?_, ?_⟩
  · rw [List.any_eq_false]
    intro x mem missed
    have later := serves.mem_within within x mem
    obtain ⟨o, r⟩ := x
    cases o with
    | verifyPassword => exact later
    | _ => cases missed
  refine serves.within (I := fun v => v.now = w.now ∧ (Keyed w → Keyed v) ∧ (counters u v = counters u w ∨
    user.id = u ∧ counters u v = (counters u w).map fun _ => (0, none))) within ?_ ⟨rfl, id, .inl rfl⟩
  rintro v o a r v' later executed ⟨now, keyed, before⟩
  by_cases updates : Op.updates o = true
  · cases o with
    | updateUsers s =>
      obtain ⟨reason, rfl, rfl⟩ | ⟨n, rfl, rfl⟩ := execute_updateUsers executed
      · exact ⟨now, keyed, before⟩
      · refine ⟨now, fun start => keyed_updated (keyed start), ?_⟩
        obtain ⟨at_, rfl⟩ := later
        rw [counters_updated]
        split
        next own =>
          refine .inr ⟨own, ?_⟩
          obtain same | ⟨-, same⟩ := before <;> rw [same] <;> cases counters u w <;> rfl
        next => exact before
    | _ => cases updates
  · obtain ⟨users, clock⟩ := execute_keeps executed (by simpa using updates)
    have same : counters u v' = counters u v := by
      unfold counters World.user
      rw [users]
    refine ⟨clock.trans now, fun start => ?_, same ▸ before⟩
    unfold Keyed
    rw [users]
    exact keyed start

/-- The world in which the password is checked. -/
structure Opened (user : User) (w w' : World) : Prop where
  now : w'.now = w.now
  keyed : Keyed w → Keyed w'
  open_ : ¬ locked user.counters w.now
  others : ∀ u ≠ user.id, counters u w' = counters u w
  own : counters user.id w = some user.counters →
    ∃ c, counters user.id w' = some c ∧ (c = (0, none) ∨ c = user.counters ∧ user.counters.2 = none)

theorem opened_of_free (free : user.lockedUntil = none) : Opened user w w where
  now := rfl
  keyed := id
  open_ := by simp [locked, User.counters, free]
  others _ _ := rfl
  own found := ⟨_, found, .inr ⟨rfl, free⟩⟩

theorem opened_of_expired (past : expired user.counters w.now) :
    Opened user w (updated (.clearLock user.id) w) where
  now := rfl
  keyed := keyed_updated
  open_ := by
    obtain ⟨until_, mem, le⟩ := past
    rintro ⟨until', mem', lt⟩
    obtain rfl := Option.mem_unique mem mem'
    exact Int.not_lt.mpr le lt
  others u ne := counters_other ne
  own found := ⟨_, counters_own rfl found, .inl rfl⟩

/-- The counters of an account that a login has not tried. -/
theorem written_same (right : l.any (misses u) = false) (same : counters u w' = counters u w) :
    (counters u w = none ∧ counters u w' = none) ∨
      ∃ before after, counters u w = some before ∧ counters u w' = some after ∧
        Written u w.now l before after := by
  rw [same]
  cases counters u w with
  | none => exact .inl ⟨rfl, rfl⟩
  | some c => exact .inr ⟨c, c, rfl, rfl, .kept right⟩

theorem login_ends {req : LoginRequest} {client : Client} {r : Except SessionError LoginResponse}
    (serves : Serves (accounts cfg) w (login cfg req client) l (some r) w') (keyed : Keyed w) :
    w'.now = w.now ∧ Keyed w' ∧ ((counters u w = none ∧ counters u w' = none) ∨
      ∃ before after, counters u w = some before ∧ counters u w' = some after ∧
        Written u w.now l before after) := by
  obtain ⟨a, row, w₁, _, selected, looked, rfl⟩ := serves.op_returned
  obtain ⟨rfl, found⟩ : w₁ = w ∧ ∀ user, row = .ok (some user) → w.localUser req.username = some user := by
    cases a <;> cases selected <;> exact ⟨rfl, by simp⟩
  cases row with
  | error reason =>
    obtain ⟨rfl, rfl, rfl⟩ := looked.ret_returned
    exact ⟨rfl, keyed, written_same rfl rfl⟩
  | ok row =>
  cases row with
  | none =>
    obtain ⟨b, hashed, w₂, _, executed, last, rfl⟩ := looked.op_returned
    obtain rfl : w₂ = w₁ := by cases b <;> cases executed <;> rfl
    obtain ⟨rfl, rfl, rfl⟩ := last.ret_returned
    exact ⟨rfl, keyed, written_same rfl rfl⟩
  | some user =>
    have row := Sql.lookup_of_mem keyed (row_of_localUser (found user rfl)).1
    obtain ⟨l₁, lock, w₂, l₂, checked, rest, rfl⟩ := Serves.bind_returned (p := checkLock user) looked
    obtain ⟨quiet, ⟨failed, rfl⟩ | ⟨rfl, stored, opened⟩⟩ := checkLock_ends (u := u) checked
    · cases lock with
      | ok _ => cases failed
      | error e =>
        obtain ⟨rfl, rfl, rfl⟩ := rest.ret_returned
        exact ⟨rfl, keyed, written_same (by simpa [misses] using quiet) rfl⟩
    · obtain ⟨b, valid, w₃, l₃, executed, after, rfl⟩ := rest.op_returned
      obtain rfl : w₃ = w₂ := by
        cases b <;> cases executed
        rfl
      have opened : Opened user w₁ w₃ := by
        obtain ⟨free, rfl⟩ | ⟨past, rfl⟩ := opened
        · exact opened_of_free free
        · exact opened_of_expired past
      have known : counters user.id w₁ = some user.counters := congrArg (·.map User.counters) row
      cases valid with
      | false =>
        obtain ⟨silent, ends⟩ := recordFailure_ends (u := u) after
        have kept : w'.now = w₁.now ∧ Keyed w' := by
          obtain ⟨-, rfl⟩ | ⟨-, s, -, rfl, -⟩ := ends
          · exact ⟨opened.now, opened.keyed keyed⟩
          · exact ⟨opened.now, keyed_updated (opened.keyed keyed)⟩
        refine ⟨kept.1, kept.2, ?_⟩
        by_cases own : u = user.id
        · subst own
          obtain ⟨c, there, of⟩ := opened.own known
          refine .inr ⟨user.counters, ?_⟩
          obtain ⟨lost, rfl⟩ | ⟨counted, s, own, rfl, writes_eq⟩ := ends
          · exact ⟨c, known, there, .unrecorded opened.open_ (by simp [misses]) (by simp [lost]) of⟩
          · have free : c.2 = none := by
              obtain rfl | ⟨rfl, free⟩ := of
              · rfl
              · exact free
            refine ⟨_, known, counters_own own there, ?_⟩
            rw [writes_eq c free, opened.now]
            exact .recorded opened.open_ (by simp [misses]) (by simp [refuses, stored, counted])
        · refine written_same (by simp [misses, quiet, silent, Ne.symm own]) ?_
          obtain ⟨-, rfl⟩ | ⟨-, s, of, rfl, -⟩ := ends
          · exact opened.others u own
          · rw [counters_other (of ▸ own), opened.others u own]
      | true =>
        have entered : Serves (accounts cfg) w₃ (signIn cfg req client user) l₃ (some r) w' := after
        obtain ⟨silent, now, kept, ends⟩ := signIn_ends (u := u) entered
        refine ⟨now.trans opened.now, kept (opened.keyed keyed), ?_⟩
        have right : (⟨.selectLocalUser req.username, .ok (some user)⟩ :: (l₁ ++ ⟨.verifyPassword user.id
            req.password (user.passwordHash.getD ""), true⟩ :: l₃)).any (misses u) = false := by
          simp [misses, quiet, silent]
        by_cases own : u = user.id
        · subst own
          obtain ⟨c, there, of⟩ := opened.own known
          obtain same | ⟨-, same⟩ := ends
          · obtain rfl | ⟨rfl, -⟩ := of
            · exact .inr ⟨_, _, known, same.trans there, .reset opened.open_ right⟩
            · exact .inr ⟨_, _, known, same.trans there, .kept right⟩
          · exact .inr ⟨_, _, known, same.trans (by rw [there]; rfl), .reset opened.open_ right⟩
        · obtain same | ⟨is_own, -⟩ := ends
          · exact written_same right (same.trans (opened.others u own))
          · exact absurd is_own.symm own

end

/-! ## Sequences of logins -/

/-- A login that has returned, or some time that passes. -/
structure Turn where
  pre : World
  exchanges : List (Exchange Op Op.Resp)
  post : World

inductive Turn.Takes (cfg : AuthSettings) (t : Turn) : Prop
  | wait (micros : Nat) (quiet : t.exchanges = []) (later : t.post = change t.pre (.tick micros))
  | login (req : LoginRequest) (client : Client) (r : Except SessionError LoginResponse)
    (served : Serves (accounts cfg) t.pre (login cfg req client) t.exchanges (some r) t.post)

inductive Attempts (cfg : AuthSettings) : World → List Turn → World → Prop
  | nil {w : World} : Attempts cfg w [] w
  | cons {t : Turn} {h : List Turn} {w' : World} (takes : t.Takes cfg) (rest : Attempts cfg t.post h w') :
    Attempts cfg t.pre (t :: h) w'

/-- A wrong password has been given for the account. -/
def Turn.fails (u : Uuid) (t : Turn) : Bool := t.exchanges.any (misses u)

/-- The lock of the account has run out. -/
def Expired (u : Uuid) (w : World) : Prop := ∃ c, counters u w = some c ∧ expired c w.now

def Locked (u : Uuid) (w : World) : Prop := ∃ c, counters u w = some c ∧ locked c w.now

/-- From any moment at which the lock has run out, fewer than five wrong passwords leave the
    account open. -/
def Tolerates (cfg : AuthSettings) (u : Uuid) (w : World) (h : List Turn) : Prop :=
  ∀ h₁ m h₂ w₁ w₂, h = h₁ ++ m ++ h₂ → Attempts cfg w h₁ w₁ → Attempts cfg w₁ m w₂ → Expired u w₁ →
    m.countP (·.fails u) < 5 → ¬ Locked u w₂

/-- The password is wrong, the lock has run out and is still on the row, and no statement on the
    accounts fails. -/
def Relocks (u : Uuid) (t : Turn) : Prop :=
  Expired u t.pre ∧ t.fails u = true ∧ t.exchanges.any refuses = false

/-- A lock is put on with the fifth failure. -/
def Counted (c : Counters) : Prop := c.2 ≠ none → 5 ≤ c.1

structure Sound (w : World) : Prop where
  keyed : Keyed w
  counted : ∀ u, ∀ c ∈ counters u w, Counted c

section

variable {cfg : AuthSettings} {u : Uuid} {w w' : World} {t : Turn} {h m h₁ h₂ : List Turn}
  {l : List (Exchange Op Op.Resp)} {now : Time} {before after : Counters}

theorem attempted_counted (failures : Nat) : Counted (attempted failures now) := by
  unfold Counted attempted
  split
  next many => exact fun _ => many
  next => exact fun some => absurd rfl some

theorem Written.counted (written : Written u now l before after) (start : Counted before) : Counted after := by
  cases written with
  | kept => exact start
  | reset => exact fun some => absurd rfl some
  | unrecorded _ _ _ same =>
    obtain rfl | ⟨rfl, -⟩ := same
    · exact fun some => absurd rfl some
    · exact start
  | recorded => exact attempted_counted _

/-- What a turn makes of the counters of each account. -/
theorem Turn.Takes.ends (takes : t.Takes cfg) (keyed : Keyed t.pre) :
    t.pre.now ≤ t.post.now ∧ Keyed t.post ∧ ∀ u, (counters u t.pre = none ∧ counters u t.post = none) ∨
      ∃ before after, counters u t.pre = some before ∧ counters u t.post = some after ∧
        Written u t.pre.now t.exchanges before after := by
  cases takes with
  | wait micros quiet later =>
    rw [later]
    exact ⟨Int.le_add_of_nonneg_right (Int.natCast_nonneg _), keyed,
      fun u => written_same (by rw [quiet]; rfl) rfl⟩
  | login req client r served =>
    have ends {u : Uuid} := login_ends (u := u) served keyed
    exact ⟨Int.le_of_eq (ends (u := 0)).1.symm, (ends (u := 0)).2.1, fun u => ends.2.2⟩

theorem Turn.Takes.sound (takes : t.Takes cfg) (sound : Sound t.pre) : Sound t.post := by
  obtain ⟨-, keyed, ends⟩ := takes.ends sound.keyed
  refine ⟨keyed, fun u c mem => ?_⟩
  obtain ⟨-, none⟩ | ⟨before, after, was, is, written⟩ := ends u
  · rw [none] at mem
    cases mem
  · rw [is] at mem
    cases mem
    exact written.counted (sound.counted u before was)

theorem Attempts.sound (attempts : Attempts cfg w h w') (sound : Sound w) : Sound w' := by
  induction attempts with
  | nil => exact sound
  | cons takes _ ih => exact ih (takes.sound sound)

theorem Attempts.append_inv (attempts : Attempts cfg w (h₁ ++ h₂) w') :
    ∃ w₁, Attempts cfg w h₁ w₁ ∧ Attempts cfg w₁ h₂ w' := by
  induction h₁ generalizing w with
  | nil => exact ⟨w, .nil, attempts⟩
  | cons t h₁ ih =>
    cases attempts with
    | cons takes rest =>
      obtain ⟨w₁, first, second⟩ := ih rest
      exact ⟨w₁, .cons takes first, second⟩

/-! ## After the end of a lockout -/

/-- Nothing has been tried since the lock has run out, or no more failures are counted than there
    have been. -/
inductive Lenient (failures : Nat) (c : Counters) (now : Time) : Prop
  | untried (none : failures = 0) (past : expired c now)
  | free (lock : c.2 = none) (few : c.1 ≤ failures)

theorem Lenient.open_ {failures : Nat} {c : Counters} (lenient : Lenient failures c now) : ¬ locked c now := by
  rintro ⟨until_, mem, early⟩
  cases lenient with
  | untried _ past =>
    obtain ⟨until', mem', late⟩ := past
    obtain rfl := Option.mem_unique mem mem'
    exact Int.not_lt.mpr late early
  | free lock => simp [lock] at mem

theorem Lenient.step {failures : Nat} {later : Time} (lenient : Lenient failures before now)
    (written : Written u now l before after) (grows : now ≤ later)
    (spared : expired before now → l.any (misses u) = true → l.any refuses = true)
    (few : failures + (if l.any (misses u) then 1 else 0) < 5) :
    Lenient (failures + if l.any (misses u) then 1 else 0) after later := by
  cases written with
  | kept right =>
    rw [right]
    cases lenient with
    | untried none past =>
      obtain ⟨until_, mem, late⟩ := past
      exact .untried none ⟨until_, mem, Int.le_trans late grows⟩
    | free lock few => exact .free lock few
  | reset _ right => exact .free rfl (Nat.zero_le _)
  | unrecorded _ wrong _ same =>
    rw [if_pos wrong]
    obtain rfl | ⟨rfl, lock⟩ := same
    · exact .free rfl (Nat.zero_le _)
    · cases lenient with
      | untried _ past =>
        obtain ⟨until_, mem, -⟩ := past
        simp [lock] at mem
      | free _ few => exact .free lock (Nat.le_succ_of_le few)
  | recorded _ wrong stored =>
    rw [if_pos wrong] at few ⊢
    cases lenient with
    | untried _ past =>
      have lost := spared past wrong
      rw [stored] at lost
      cases lost
    | free _ counted =>
      have below : ¬ 5 ≤ before.1 + 1 := by omega
      unfold attempted
      rw [if_neg below]
      exact .free rfl (Nat.succ_le_succ counted)

theorem Lenient.run {c : Counters} (attempts : Attempts cfg w m w') (keyed : Keyed w)
    (spared : ∀ t ∈ m, ¬ Relocks u t) {failures : Nat} (start : counters u w = some c)
    (lenient : Lenient failures c w.now) (few : failures + m.countP (·.fails u) < 5) :
    ∃ c', counters u w' = some c' ∧ ¬ locked c' w'.now := by
  induction attempts generalizing failures c with
  | nil => exact ⟨c, start, lenient.open_⟩
  | @cons t m w' takes rest ih =>
    obtain ⟨grows, keyed', ends⟩ := takes.ends keyed
    obtain ⟨none, -⟩ | ⟨before, after, was, is, written⟩ := ends u
    · rw [start] at none
      cases none
    obtain rfl : c = before := Option.some.inj (start.symm.trans was)
    have total : failures + ((if t.fails u then 1 else 0) + m.countP (·.fails u)) < 5 := by
      rw [List.countP_cons] at few
      omega
    have spared_here : expired c t.pre.now → t.fails u = true → t.exchanges.any refuses = true := by
      intro past wrong
      by_contra stored
      exact spared t List.mem_cons_self ⟨⟨c, start, past⟩, wrong, Bool.eq_false_iff.mpr stored⟩
    have next := lenient.step written grows spared_here (Nat.lt_of_le_of_lt (by unfold Turn.fails; omega) total)
    exact ih keyed' (fun t' mem => spared t' (List.mem_cons_of_mem _ mem)) is next
      (by rw [Nat.add_assoc]; exact total)

/-- A turn that finds the lock run out, and is not spared, puts it on again. -/
theorem locked_of_relocks (takes : t.Takes cfg) (sound : Sound t.pre) (relocks : Relocks u t) : Locked u t.post := by
  obtain ⟨⟨c, found, past⟩, wrong, stored⟩ := relocks
  cases takes with
  | wait micros quiet =>
    unfold Turn.fails at wrong
    rw [quiet] at wrong
    cases wrong
  | login req client r served =>
    obtain ⟨now, -, ⟨none, -⟩ | ⟨before, after, was, is, written⟩⟩ := login_ends (u := u) served sound.keyed
    · rw [found] at none
      cases none
    obtain rfl : c = before := Option.some.inj (found.symm.trans was)
    obtain ⟨until_, mem, -⟩ := past
    have many := sound.counted u c found (by rw [mem]; nofun)
    refine ⟨after, is, ?_⟩
    unfold Turn.fails at wrong
    cases written with
    | kept right | reset _ right =>
      rw [wrong] at right
      cases right
    | unrecorded _ _ lost =>
      rw [stored] at lost
      cases lost
    | recorded =>
      have locks : 5 ≤ c.1 + 1 := by omega
      rw [now]
      unfold attempted
      rw [if_pos locks]
      exact ⟨_, rfl, Int.lt_add_of_pos_right _ (by decide)⟩

/-- The allowance is whole again after every lockout, if and only if no turn gives a wrong password
    for an account whose expired lock is still on the row. -/
theorem tolerates_iff (cfg : AuthSettings) (u : Uuid) (w w' : World) (h : List Turn) (sound : Sound w)
    (attempts : Attempts cfg w h w') : Tolerates cfg u w h ↔ ∀ t ∈ h, ¬ Relocks u t := by
  constructor
  · intro tolerates t mem relocks
    obtain ⟨h₁, h₂, rfl⟩ := List.append_of_mem mem
    obtain ⟨w₁, first, second⟩ := attempts.append_inv
    cases second with
    | cons takes rest =>
      have one : [t].countP (·.fails u) < 5 := Nat.lt_of_le_of_lt List.countP_le_length (by simp)
      exact tolerates h₁ [t] h₂ t.pre t.post (by simp) first (.cons takes .nil) relocks.1 one
        (locked_of_relocks takes (first.sound sound) relocks)
  · rintro spared h₁ m h₂ w₁ w₂ rfl first second ⟨c, found, past⟩ few ⟨c', found', shut⟩
    have spared_m : ∀ t ∈ m, ¬ Relocks u t := fun t mem => spared t (by simp [mem])
    obtain ⟨c'', is, open_⟩ := Lenient.run second (first.sound sound).keyed spared_m found
      (.untried rfl past) (by rwa [Nat.zero_add])
    obtain rfl : c'' = c' := Option.some.inj (is.symm.trans found')
    exact open_ shut

end

/-! ## A sixth wrong password -/

def settings : AuthSettings := { sha256 := id, signingKeyPem := "key", accessTtlSecs := 900 }

def ann (failures : Nat) (lock : Option Time) : User :=
  { id := 1, username := "ann", displayName := "Ann", role := .operator, authProvider := .localUser
    passwordHash := some "hash", totpSecretEncrypted := none, totpSecretNonce := none
    mfaEnabled := false, isActive := true, forcePasswordReset := false, failedLoginAttempts := failures
    lockedUntil := lock, lastLoginAt := none }

def at_ (failures : Nat) (lock : Option Time) (now : Time) : World :=
  { users := [ann failures lock], ids := [1], now }

def guess : LoginRequest := ⟨"ann", "guess", none⟩

def halfHour : Time := 30 * microsPerMinute

def fifth : Turn where
  pre := at_ 4 none 0
  exchanges := [⟨.selectLocalUser "ann", .ok (some (ann 4 none))⟩, ⟨.verifyPassword 1 "guess" "hash", false⟩,
    ⟨.utcNow, (0 : Time)⟩, ⟨.updateUsers (.lockAccount 5 halfHour 1), .ok 1⟩]
  post := at_ 5 (some halfHour) 0

def lockout : Turn := ⟨at_ 5 (some halfHour) 0, [], at_ 5 (some halfHour) halfHour⟩

def sixth : Turn where
  pre := at_ 5 (some halfHour) halfHour
  exchanges := [⟨.selectLocalUser "ann", .ok (some (ann 5 (some halfHour)))⟩, ⟨.utcNow, halfHour⟩,
    ⟨.updateUsers (.clearLock 1), .ok 1⟩, ⟨.verifyPassword 1 "guess" "hash", false⟩, ⟨.utcNow, halfHour⟩,
    ⟨.updateUsers (.lockAccount 6 (halfHour + halfHour) 1), .ok 1⟩]
  post := at_ 6 (some (halfHour + halfHour)) halfHour

theorem fifth_takes : fifth.Takes settings :=
  .login guess ⟨none, none⟩ (.error .invalidCredentials) <|
    .op (a := Answer.ok) rfl <| .op (a := Answer.truth false) rfl <| .op (a := Answer.ok) rfl <|
      .op (a := Answer.ok) rfl .ret

theorem sixth_takes : sixth.Takes settings :=
  .login guess ⟨none, none⟩ (.error .invalidCredentials) <|
    .op (a := Answer.ok) rfl <| .op (a := Answer.ok) rfl <| .op (a := Answer.ok) rfl <|
      .op (a := Answer.truth false) rfl <| .op (a := Answer.ok) rfl <| .op (a := Answer.ok) rfl .ret

theorem attempts : Attempts settings (at_ 4 none 0) [fifth, lockout, sixth]
    (at_ 6 (some (halfHour + halfHour)) halfHour) :=
  .cons fifth_takes <| .cons (t := lockout) (.wait 1800000000 rfl rfl) <| .cons sixth_takes .nil

theorem sound : Sound (at_ 4 none 0) where
  keyed := by simp [Keyed, at_]
  counted u c mem := by
    obtain ⟨user, found, rfl⟩ := Option.map_eq_some_iff.mp mem
    obtain ⟨there, -⟩ := Sql.lookup_some found
    obtain rfl := List.mem_singleton.mp there
    exact fun some => absurd rfl some

theorem tolerates_iff_sixth : Tolerates settings 1 (at_ 4 none 0) [fifth, lockout, sixth] ↔
    ∀ t ∈ [fifth, lockout, sixth], ¬ Relocks 1 t :=
  tolerates_iff settings 1 (at_ 4 none 0) _ _ sound attempts

/-- One wrong password after half an hour has locked the account again. -/
theorem relocked : ¬ ∀ (cfg : AuthSettings) (u : Uuid) (w w' : World) (h : List Turn), Sound w →
    Attempts cfg w h w' → Tolerates cfg u w h := by
  intro law
  exact law settings 1 (at_ 4 none 0) _ [fifth, lockout, sixth] sound attempts [fifth, lockout] [sixth] []
    (at_ 5 (some halfHour) halfHour) (at_ 6 (some (halfHour + halfHour)) halfHour) rfl
    (.cons fifth_takes <| .cons (t := lockout) (.wait 1800000000 rfl rfl) .nil) (.cons sixth_takes .nil)
    ⟨_, rfl, halfHour, rfl, Int.le_refl _⟩ (by decide)
    ⟨_, rfl, halfHour + halfHour, rfl, by decide⟩

end PatchManager.Auth.Lockout
