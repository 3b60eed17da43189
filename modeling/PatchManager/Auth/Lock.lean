import PatchManager.Auth.Tokens

/-! # What becomes of an account

A row of `users` keeps its name, and its failure counter and lock change by the statements of
the sign-in code only.

Main results:

* `user_cases`: where the row of an account comes from.
* `name_kept`: an account keeps its name.
-/

namespace PatchManager.Auth

open PatchManager.Conc

variable {cfg : AuthSettings} {s t : State} {h : History} {l : Label Op Op.Resp Fn} {u : Uuid}
  {user : User}

/-- The columns the lock of an account is in. -/
def User.counters (user : User) : Nat × Option Time := (user.failedLoginAttempts, user.lockedUntil)

def User.locked (user : User) (now : Time) : Bool := user.lockedUntil.any fun until_ => now < until_

def User.lockExpired (user : User) (now : Time) : Bool := user.lockedUntil.any fun until_ => until_ ≤ now

theorem User.edited_counters (user new : User) : (user.edited new).counters = user.counters := by
  unfold User.edited
  split <;> rfl

theorem User.edited_username (user new : User) : (user.edited new).username = user.username := by
  unfold User.edited
  split <;> rfl

@[simp] theorem UserUpdate.assign_username (upd : UserUpdate) (user : User) :
    (upd.assign user).username = user.username := by
  cases upd <;> rfl

theorem lookup_filter_ne {id : Uuid} {users : List User}
    (found : Sql.lookup User.id u (users.filter (·.id ≠ id)) = some user) :
    Sql.lookup User.id u users = some user := by
  unfold Sql.lookup at *
  rw [List.find?_filter] at found
  have key := List.find?_some found
  simp only [beq_iff_eq, decide_eq_true_eq] at key
  have apart : u ≠ id := key.2 ▸ key.1
  rw [← found]
  congr 1
  funext other
  by_cases same : other.id = u
  · simp [same, apart]
  · simp [same]

/-- The row of an account after a step has been written by a statement of the sign-in code, was
    there with the same lock, or is new. -/
theorem user_cases (step : Step (accounts cfg).machine s l t) (found : t.world.user u = some user) :
    (∃ tid n upd old, l = .op tid (.updateUsers upd) (.ok n) ∧ upd.id = u ∧
        s.world.user u = some old ∧ user = upd.assign old) ∨
      (∃ old, s.world.user u = some old ∧ user.counters = old.counters) ∨
      (u ∉ s.world.ids ∧ user.counters = (0, none)) := by
  have moves := moves_of_step step
  unfold World.user at *
  generalize t.world = w at moves found
  cases moves with
  | @users tid n upd =>
    rw [Sql.lookup_apply upd.keeps_id] at found
    obtain ⟨old, there, rfl⟩ := Option.map_eq_some_iff.mp found
    by_cases own : upd.id = u
    · have key := (Sql.lookup_some there).2
      refine .inl ⟨tid, n, upd, old, rfl, own, there, ?_⟩
      exact Sql.Update.onRow_eq_assign (by simp [UserUpdate.update, key, own])
    · have key := (Sql.lookup_some there).2
      refine .inr (.inl ⟨old, there, ?_⟩)
      rw [Sql.Update.onRow_eq_self (by simpa [UserUpdate.update, key] using Ne.symm own)]
  | @create new fresh =>
    rcases Sql.lookup_append_cases found with old | ⟨-, last, key⟩
    · exact .inr (.inl ⟨user, old, rfl⟩)
    · obtain rfl := List.mem_singleton.mp last
      exact .inr (.inr ⟨key ▸ fresh, rfl⟩)
  | @edit new =>
    rw [Sql.lookup_map fun row => row.edited_id new] at found
    obtain ⟨old, there, rfl⟩ := Option.map_eq_some_iff.mp found
    exact .inr (.inl ⟨old, there, old.edited_counters new⟩)
  | delete => exact .inr (.inl ⟨user, lookup_filter_ne found, rfl⟩)
  | _ => exact .inr (.inl ⟨user, found, rfl⟩)

/-- The row of an account after a statement that is for it. -/
theorem row_of_update {tid n : Nat} {upd : UserUpdate}
    (step : Step (accounts cfg).machine s (.op tid (.updateUsers upd) (.ok n)) t)
    (found : t.world.user upd.id = some user) :
    ∃ old, s.world.user upd.id = some old ∧ user = upd.assign old := by
  obtain ⟨_, _, w, _, ⟨a, done⟩, rfl⟩ := step.op_inv
  change execute cfg.sha256 s.world (.updateUsers upd) a = _ at done
  have users : w.users = upd.update.apply s.world.users := by
    cases a <;> cases done <;> rfl
  change Sql.lookup User.id upd.id w.users = some user at found
  rw [users, Sql.lookup_apply upd.keeps_id] at found
  obtain ⟨old, there, rfl⟩ := Option.map_eq_some_iff.mp found
  have key := (Sql.lookup_some there).2
  exact ⟨old, there, Sql.Update.onRow_eq_assign (by simp [UserUpdate.update, key])⟩

/-- A password check leaves everything as it is. -/
theorem world_of_verify {tid : Nat} {id : Uuid} {password hash : String} {valid : Bool}
    (step : Step (accounts cfg).machine s (.op tid (.verifyPassword id password hash) valid) t) :
    t.world = s.world := by
  obtain ⟨_, _, w, _, ⟨a, done⟩, rfl⟩ := step.op_inv
  change execute cfg.sha256 s.world (.verifyPassword id password hash) a = _ at done
  cases a <;> cases done
  rfl

/-- An account that has been given out keeps its name. -/
theorem name_kept (run : Run (accounts cfg).machine s h t) {name : String} (known : u ∈ s.world.ids)
    (named : ∀ user ∈ s.world.users, user.id = u → user.username = name) :
    ∀ user ∈ t.world.users, user.id = u → user.username = name := by
  refine (run.preserves (I := fun v => u ∈ v.world.ids ∧ ∀ user ∈ v.world.users, user.id = u → user.username = name)
    ?_ ⟨known, named⟩).2
  rintro e mem step ⟨known, before⟩
  refine ⟨ids_grow step known, ?_⟩
  have moves := moves_of_step step
  generalize e.label = l at moves
  generalize e.post.world = w at moves
  cases moves with
  | @users tid n upd =>
    intro user mem same
    obtain ⟨old, there, rfl⟩ := Sql.Update.mem_apply.mp mem
    have keeps : upd.update.Keeps User.username := fun user _ => upd.assign_username user
    rw [upd.keeps_id.onRow] at same
    rw [keeps.onRow]
    exact before old there same
  | @create new fresh =>
    intro user mem same
    rcases List.mem_append.mp mem with old | last
    · exact before user old same
    · obtain rfl := List.mem_singleton.mp last
      exact absurd known (same ▸ fresh)
  | @edit new =>
    intro user mem same
    obtain ⟨old, there, rfl⟩ := List.mem_map.mp mem
    rw [User.edited_id] at same
    rw [User.edited_username]
    exact before old there same
  | delete => exact fun user mem same => before user (List.mem_of_mem_filter mem) same
  | _ => exact before

theorem clock_grows (step : Step (accounts cfg).machine s l t) : s.world.now ≤ t.world.now := by
  have moves := moves_of_step step
  generalize t.world = w at moves
  cases moves with
  | tick => simp
  | _ => exact Int.le_refl _

/-- The answers a request has had from the clock are of the past. -/
theorem clock_read (run : Run (accounts cfg).machine s h t) {tid : Nat} {now : Time}
    (read : ⟨.utcNow, now⟩ ∈ exchanges tid h) : now ≤ t.world.now := by
  obtain ⟨h₁, e, h₂, rfl, label⟩ := exists_event_of_mem read
  obtain ⟨-, step, rest⟩ := run.split_event
  have later : e.post.world.now ≤ t.world.now :=
    rest.preserves (I := fun s => e.post.world.now ≤ s.world.now)
      (fun _ _ step before => Int.le_trans before (clock_grows step)) (Int.le_refl _)
  have first := clock_grows step
  rw [label] at step
  obtain ⟨_, _, _, -, ⟨a, done⟩, -⟩ := step.op_inv
  obtain ⟨rfl, -⟩ := Prod.mk.inj (Option.some.inj done)
  exact Int.le_trans first later

/-! ## What is selected -/

theorem row_of_localUser {w : World} {username : String} (found : w.localUser username = some user) :
    user ∈ w.users ∧ user.username = username := by
  have test := List.find?_some found
  simp only [Bool.and_eq_true, beq_iff_eq] at test
  exact ⟨List.mem_of_find?_eq_some found, test.1⟩

theorem row_of_selectLocalUser {tid : Nat} {username : String}
    (step : Step (accounts cfg).machine s (.op tid (.selectLocalUser username) (.ok (some user))) t) :
    user ∈ s.world.users ∧ user.username = username := by
  obtain ⟨_, _, _, _, ⟨a, done⟩, -⟩ := step.op_inv
  change execute cfg.sha256 s.world (.selectLocalUser username) a = _ at done
  refine row_of_localUser ?_
  cases a <;> simp only [execute, Option.some.injEq, Prod.mk.injEq, Except.ok.injEq, reduceCtorEq,
    false_and] at done <;> exact done.1

theorem row_of_selectPassword {tid : Nat} {username : String} {hash : Option String} {reset : Bool}
    (step : Step (accounts cfg).machine s (.op tid (.selectPassword username) (.ok (some (u, hash, reset)))) t) :
    ∃ row ∈ s.world.users, row.id = u ∧ row.username = username := by
  obtain ⟨_, _, _, _, ⟨a, done⟩, -⟩ := step.op_inv
  change execute cfg.sha256 s.world (.selectPassword username) a = _ at done
  have found : ((s.world.localUser username).map fun u => (u.id, u.passwordHash, u.forcePasswordReset)) =
      some (u, hash, reset) := by
    cases a <;> simp only [execute, Option.some.injEq, Prod.mk.injEq, Except.ok.injEq, reduceCtorEq,
      false_and] at done <;> exact done.1
  obtain ⟨row, there, eq⟩ := Option.map_eq_some_iff.mp found
  obtain ⟨mem, named⟩ := row_of_localUser there
  exact ⟨row, mem, congrArg Prod.fst eq, named⟩

/-- The account of an identifier. -/
theorem user_of_mem {w : World} (consistent : w.Consistent) (mem : user ∈ w.users) :
    w.user user.id = some user := by
  cases found : w.user user.id with
  | none => exact absurd (List.find?_eq_none.mp found user mem) (by simp)
  | some other =>
    obtain ⟨there, key⟩ := Sql.lookup_some found
    exact congrArg some (List.inj_on_of_nodup_map consistent.userIds there mem key)

end PatchManager.Auth
