import PatchManager.Verified.Privileges

/-! # The first password

The account that the schema is seeded with has a hash that fits no password.  Every start of the
service looks at it, and the start that replaces it prints the password.

Main result: `first_password`.
-/

namespace PatchManager.Accounts

open PatchManager.Conc PatchManager.Auth

variable {cfg : FrontSettings} {s t : State} {h h₁ h₂ h₃ : History} {e e' : Ev} {tid tid' : Nat}
  {password password' newHash : String} {n : Nat}

/-- No salt that is drawn is the one of the seeded hash. -/
def Salted (h : History) : Prop :=
  ∀ e ∈ h, ∀ tid password hash, e.label = .op tid (.inl (.hashPassword password)) (.ok hash) →
    isPlaceholder hash = false

theorem Salted.of_subset (salted : Salted h) (part : h₁ ⊆ h) : Salted h₁ := fun e mem => salted e (part mem)

/-- No account has the seeded hash. -/
def Claimed (w : World) : Prop := ∀ u ∈ w.1.users, ¬ Unclaimed u

def Printed (e : Ev) (tid : Nat) (password : String) : Prop :=
  e.label = .op tid (.inr (.printPassword password)) ()

/-- The request has set the password of the seeded account. -/
def Claims (e : Ev) (tid : Nat) (newHash : String) : Prop :=
  e.label = .op tid (.inr (.updateAccount (.bootstrapPassword newHash))) (.ok 1)

/-- A start that has read the hash and come to its end without an error. -/
structure Finished (h : History) (tid : Nat) : Prop where
  returned : bootstrapAdminPassword.Returns (exchanges tid h) ()
  read : ∃ hash, own .selectAdminHash (some hash) ∈ exchanges tid h
  hashed : ∀ password reason, asked (.hashPassword password) (.error reason) ∉ exchanges tid h
  updated : ∀ c reason, own (.updateAccount c) (.error reason) ∉ exchanges tid h

/-- One password is printed at most, however often and however many times at once the service is
    started; it is the one that has been set, and a start without an error leaves the account with one. -/
structure FirstPassword (h : History) (t : State) : Prop where
  once : ∀ h₁ e h₂ e' h₃ tid tid' password password', h = h₁ ++ e :: (h₂ ++ e' :: h₃) →
    Printed e tid password → ¬ Printed e' tid' password'
  set : ∀ h₁ e h₂ tid password, h = h₁ ++ e :: h₂ → Printed e tid password →
    ∃ newHash a u, Generated (exchanges tid h₁) password newHash ∧ a ∈ h₁ ∧ Claims a tid newHash ∧
      u ∈ a.pre.world.1.users ∧ Unclaimed u ∧ { u with passwordHash := some newHash } ∈ a.post.world.1.users
  claimed : ∀ tid, Finished h tid → Claimed t.world

/-! ## Rows -/

theorem unclaimed_iff (u : User) : Unclaimed u ↔ AccountUpdate.cond (.bootstrapPassword newHash) u = true := by
  simp [Unclaimed, AccountUpdate.cond, and_assoc]

/-- The hash a statement sets. -/
def AccountUpdate.newHash? : AccountUpdate → Option String
  | changePassword newHash _ | resetPassword newHash _ _ | bootstrapPassword newHash => some newHash
  | _ => none

/-- What a statement makes of the columns that the seeded account is known by. -/
theorem AccountUpdate.hash_cases (c : AccountUpdate) (now : Time) (u : User) :
    ((c.update now).onRow u).passwordHash = u.passwordHash ∨
      ∃ newHash, c.newHash? = some newHash ∧ ((c.update now).onRow u).passwordHash = some newHash := by
  unfold Sql.Update.onRow
  split
  · cases c with
    | changePassword newHash id => exact .inr ⟨newHash, rfl, rfl⟩
    | resetPassword newHash force id => exact .inr ⟨newHash, rfl, rfl⟩
    | bootstrapPassword newHash => exact .inr ⟨newHash, rfl, rfl⟩
    | _ => exact .inl rfl
  · exact .inl rfl

theorem AccountUpdate.provider_cases (c : AccountUpdate) (now : Time) (u : User) :
    ((c.update now).onRow u).authProvider = u.authProvider ∨ ∃ provider azureOid oidcSub id,
      c = .linkProvider provider azureOid oidcSub id ∧ ((c.update now).onRow u).authProvider = provider := by
  unfold Sql.Update.onRow
  split
  · cases c with
    | linkProvider provider azureOid oidcSub id => exact .inr ⟨provider, azureOid, oidcSub, id, rfl, rfl⟩
    | _ => exact .inl rfl
  · exact .inl rfl

theorem UserUpdate.hash_cases (c : UserUpdate) (u : User) :
    (c.update.onRow u).passwordHash = u.passwordHash ∨
      ∃ newHash id, c = .setPassword newHash id ∧ (c.update.onRow u).passwordHash = some newHash := by
  unfold Sql.Update.onRow
  split
  · cases c with
    | setPassword newHash id => exact .inr ⟨newHash, id, rfl, rfl⟩
    | _ => exact .inl rfl
  · exact .inl rfl

theorem UserUpdate.keeps_provider (c : UserUpdate) : c.update.Keeps User.authProvider := by
  intro u _
  cases c <;> rfl

theorem UserUpdate.keeps_username (c : UserUpdate) : c.update.Keeps User.username := by
  intro u _
  cases c <;> rfl

/-- A row as it was, but for a hash that fits a password, is not the seeded one. -/
theorem not_unclaimed {u v : User} (before : ¬ Unclaimed u) (username : v.username = u.username)
    (provider : v.authProvider = .localUser → v.authProvider = u.authProvider)
    (hash : v.passwordHash = u.passwordHash ∨ ∃ newHash, v.passwordHash = some newHash ∧
      isPlaceholder newHash = false) : ¬ Unclaimed v := by
  rintro ⟨admin, localUser, seeded⟩
  obtain same | ⟨newHash, new, fits⟩ := hash
  · exact before ⟨username ▸ admin, provider localUser ▸ localUser, same ▸ seeded⟩
  · simp [new, fits] at seeded

/-! ## Steps -/

section steps

variable (run : Run (front cfg).machine s (h ++ [e]) t) (start : s.tasks = []) (salted : Salted (h ++ [e]))

theorem salted_of_hashed {hash : String} (salted : Salted h) (hashed : Hashed (exchanges tid h) hash) :
    isPlaceholder hash = false := by
  obtain ⟨password, mem⟩ := hashed
  obtain ⟨h₁, e, h₂, rfl, label⟩ := exists_event_of_mem mem
  exact salted e (by simp) tid password hash label

include run start salted

/-- Once no account has the seeded hash, none gets it. -/
theorem claimed_step (before : Claimed e.pre.world) : Claimed t.world := by
  obtain ⟨-, step, rfl⟩ := run.snoc_inv
  have shown : ∀ {tid o r}, e.label = .op tid o r → permits (exchanges tid h) o := fun label =>
    permitted_at (show Run _ _ (h ++ e :: []) _ from run) start label
  have fits : ∀ {tid hash}, Hashed (exchanges tid h) hash → isPlaceholder hash = false := fun hashed =>
    salted_of_hashed (fun e' mem => salted e' (by simp [mem])) hashed
  have moves := moves_of_step step
  generalize label : e.label = l at moves
  generalize e.post.world = w at moves
  intro v mem
  cases moves with
  | @signIn tid n c w users rest =>
    rw [users] at mem
    obtain ⟨u, there, rfl⟩ := Sql.Update.mem_apply.mp mem
    refine not_unclaimed (before u there) ((UserUpdate.keeps_username c).onRow u)
      (fun _ => (UserUpdate.keeps_provider c).onRow u) ?_
    obtain same | ⟨newHash, id, rfl, new⟩ := UserUpdate.hash_cases c u
    · exact .inl same
    · exact .inr ⟨newHash, new, fits (shown label).2⟩
  | @update tid n c =>
    obtain ⟨u, there, rfl⟩ := Sql.Update.mem_apply.mp mem
    refine not_unclaimed (before u there) ((c.keeps_username _).onRow u) (fun isLocal => ?_) ?_
    · obtain same | ⟨provider, azureOid, oidcSub, id, rfl, new⟩ := c.provider_cases e.pre.world.1.now u
      · exact same
      · exact absurd (new.symm.trans isLocal) (shown label).2
    · obtain same | ⟨newHash, sets, new⟩ := c.hash_cases e.pre.world.1.now u
      · exact .inl same
      · refine .inr ⟨newHash, new, ?_⟩
        have permitted := shown label
        cases c with
        | changePassword hash id => exact Option.some.inj sets ▸ fits permitted.2.2
        | resetPassword hash force id => exact Option.some.inj sets ▸ fits permitted.2
        | bootstrapPassword hash =>
          obtain ⟨password, ⟨-, hashed⟩, -⟩ := permitted
          exact Option.some.inj sets ▸ fits ⟨password, hashed⟩
        | _ => cases sets
  | @insert tid new id =>
    rcases List.mem_append.mp mem with there | last
    · exact before v there
    · obtain rfl := List.mem_singleton.mp last
      rintro ⟨-, -, seeded⟩
      change new.passwordHash.any isPlaceholder = true at seeded
      obtain ⟨-, hash, has, hashed⟩ | ⟨-, none_⟩ := shown label
      · simp [has, fits hashed] at seeded
      · simp [none_] at seeded
  | delete => exact before v (List.mem_of_mem_filter mem)
  | sign => exact before v mem
  | aside users => exact before v (users ▸ mem)

end steps

/-- What a statement has changed, and how many rows. -/
theorem updated_by {c : AccountUpdate} (step : Step (front cfg).machine s (.op tid (.inr (.updateAccount c)) (.ok n)) t) :
    t.world = s.world.update c ∧ n = (c.update s.world.1.now).affected s.world.1.users := by
  obtain ⟨a, done⟩ := own_inv step
  have applied : (if Distinct (s.world.update c).2.contacts then
      some ((.ok ((c.update s.world.1.now).affected s.world.1.users) : Except String Nat), s.world.update c)
      else none) = some (.ok n, t.world) := by
    cases a with
    | plain a =>
      cases a with
      | failed reason => exact nomatch (Prod.mk.inj (Option.some.inj done)).1
      | _ => exact done
    | _ => exact done
  obtain ⟨-, pair⟩ := Option.ite_none_right_eq_some.mp applied
  obtain ⟨rows, moved⟩ := Prod.mk.inj (Option.some.inj pair)
  exact ⟨moved.symm, (Except.ok.inj rows).symm⟩

/-- After the statement of a start no account has the seeded hash. -/
theorem claimed_of_update (fits : isPlaceholder newHash = false)
    (step : Step (front cfg).machine s (.op tid (.inr (.updateAccount (.bootstrapPassword newHash))) (.ok n)) t) :
    Claimed t.world := by
  obtain ⟨moved, -⟩ := updated_by step
  rw [moved]
  intro v mem
  obtain ⟨u, there, rfl⟩ := Sql.Update.mem_apply.mp mem
  rintro ⟨admin, isLocal, seeded⟩
  by_cases met : AccountUpdate.cond (.bootstrapPassword newHash) u = true
  · have new := Sql.Update.onRow_eq_assign (u := AccountUpdate.update (.bootstrapPassword newHash) s.world.1.now) met
    rw [new] at seeded
    simp [AccountUpdate.update, AccountUpdate.assign, fits] at seeded
  · have same := Sql.Update.onRow_eq_self (u := AccountUpdate.update (.bootstrapPassword newHash) s.world.1.now)
      (Bool.eq_false_iff.mpr met)
    rw [same] at admin isLocal seeded
    exact met ((unclaimed_iff u).mp ⟨admin, isLocal, seeded⟩)

/-- The start that sets the password finds the seeded account and replaces its hash. -/
theorem set_by_claims (step : Step (front cfg).machine s
    (.op tid (.inr (.updateAccount (.bootstrapPassword newHash))) (.ok 1)) t) :
    ∃ u ∈ s.world.1.users, Unclaimed u ∧ { u with passwordHash := some newHash } ∈ t.world.1.users := by
  obtain ⟨moved, rows⟩ := updated_by step
  have some_row : ∃ u ∈ s.world.1.users, AccountUpdate.cond (.bootstrapPassword newHash) u = true := by
    by_contra none_
    have zero : (AccountUpdate.update (.bootstrapPassword newHash) s.world.1.now).affected s.world.1.users = 0 :=
      Sql.Update.affected_eq_zero.mpr fun u mem => Bool.eq_false_iff.mpr fun met => none_ ⟨u, mem, met⟩
    omega
  obtain ⟨u, there, met⟩ := some_row
  refine ⟨u, there, (unclaimed_iff u).mpr met, ?_⟩
  rw [moved]
  exact Sql.Update.mem_apply.mpr ⟨u, there, Sql.Update.onRow_eq_assign met⟩

/-- What a start reads of the seeded account. -/
theorem read_adminHash {hash : String}
    (step : Step (front cfg).machine s (.op tid (.inr .selectAdminHash) (some hash)) t) :
    ∃ u ∈ s.world.1.users, u.username = "admin" ∧ u.authProvider = .localUser ∧ u.passwordHash = some hash := by
  obtain ⟨a, done⟩ := own_inv step
  have found : (s.world.1.localUser "admin").bind User.passwordHash = some hash := by
    cases a with
    | plain a =>
      cases a with
      | failed reason => exact nomatch (Prod.mk.inj (Option.some.inj done)).1
      | _ => exact (Prod.mk.inj (Option.some.inj done)).1
    | _ => exact (Prod.mk.inj (Option.some.inj done)).1
  obtain ⟨u, row, has⟩ := Option.bind_eq_some_iff.mp found
  have there := List.mem_of_find?_eq_some row
  have met := List.find?_some row
  obtain ⟨admin, isLocal⟩ : u.username = "admin" ∧ u.authProvider = .localUser := by simpa using met
  exact ⟨u, there, admin, isLocal, has⟩

/-- No two accounts have one name. -/
theorem usernames_step {label : Label Ops Resps Fn} (step : Step (front cfg).machine s label t)
    (unique : (s.world.1.users.map User.username).Nodup) : (t.world.1.users.map User.username).Nodup := by
  have kept : ∀ {u : Sql.Update User}, u.Keeps User.username →
      ((u.apply s.world.1.users).map User.username).Nodup := by
    intro u keeps
    rw [Sql.Update.apply, List.map_map, show User.username ∘ u.onRow = User.username from
      funext fun r => keeps.onRow r]
    exact unique
  have moves := moves_of_step step
  generalize world : t.world = w at moves
  cases moves with
  | @signIn tid n c w users rest =>
    rw [users]
    exact kept (UserUpdate.keeps_username c)
  | @update tid n c => exact kept (c.keeps_username _)
  | @insert tid new id =>
    obtain ⟨a, done⟩ := own_inv step
    have fresh : ∀ u ∈ s.world.1.users, u.username ≠ new.username := by
      cases a with
      | plain a =>
        cases a with
        | id key =>
          obtain ⟨⟨-, other, -⟩, -⟩ := Option.ite_none_right_eq_some.mp done
          exact other
        | failed reason => cases (Prod.mk.inj (Option.some.inj done)).1
        | _ => cases done
      | _ => cases done
    rw [World.insert, List.map_append, List.nodup_append]
    refine ⟨unique, by simp, ?_⟩
    simp only [List.mem_map, List.map_cons, List.map_nil, List.mem_singleton]
    rintro _ ⟨u, there, rfl⟩ _ rfl
    exact fresh u there
  | delete => exact unique.sublist (List.filter_sublist.map _)
  | sign => exact unique
  | aside users => rwa [users]

/-! ## Runs -/

section runs

variable (run : Run (front cfg).machine s h t) (start : s.tasks = []) (salted : Salted h)

include run start salted

/-- Once no account has the seeded hash, none has it any more. -/
theorem claimed_after (split : h = h₁ ++ e :: h₂) (claimed : Claimed e.post.world) : Claimed t.world := by
  subst split
  refine run.kept_after (P := fun s => Claimed s.world) claimed fun l₁ a l₂ eq before => ?_
  rw [eq] at run salted
  obtain ⟨earlier, step, -⟩ := run.split_event
  exact claimed_step (earlier.snoc step) start (salted.of_subset (by simp)) before

/-- The statement of a start that changes a row is the only one that does. -/
theorem claims_once (split : h = h₁ ++ e :: (h₂ ++ e' :: h₃)) (claims : Claims e tid newHash)
    {newHash' : String} (claims' : Claims e' tid' newHash') : False := by
  subst split
  obtain ⟨before, step', -⟩ := Run.split_event (h := h₁ ++ e :: h₂) (by simpa using run)
  obtain ⟨-, step, -⟩ := before.split_event
  rw [show e.label = _ from claims] at step
  rw [show e'.label = _ from claims'] at step'
  obtain ⟨password, ⟨-, hashed⟩, -⟩ := permitted_at run start claims
  have fits := salted_of_hashed (salted.of_subset (by simp)) ⟨password, hashed⟩
  have claimed : Claimed e'.pre.world :=
    claimed_after before start (salted.of_subset fun a mem => by simp at mem ⊢; tauto) rfl
      (claimed_of_update fits step)
  obtain ⟨u, there, unclaimed, -⟩ := set_by_claims step'
  exact claimed u there unclaimed

/-- A start without an error leaves no account with the seeded hash. -/
theorem claimed_of_finished (unique : (s.world.1.users.map User.username).Nodup) (finished : Finished h tid) :
    Claimed t.world := by
  have at_ : ∀ {o : Ops} {r : Resps o}, ⟨o, r⟩ ∈ exchanges tid h → ∃ h₁ e h₂, h = h₁ ++ e :: h₂ ∧
      e.label = .op tid o r ∧ Run (front cfg).machine s h₁ e.pre ∧ Step (front cfg).machine e.pre (.op tid o r) e.post := by
    intro o r mem
    obtain ⟨h₁, e, h₂, eq, label⟩ := exists_event_of_mem mem
    obtain ⟨before, step, -⟩ := (eq ▸ run).split_event
    exact ⟨h₁, e, h₂, eq, label, before, label ▸ step⟩
  obtain ⟨returned, ⟨hash, read⟩, hashed, updated⟩ := finished
  obtain ⟨r, l, eq, rest⟩ := returned.op_inv
  rw [eq] at read hashed updated
  cases r with
  | none =>
    obtain ⟨rfl, -⟩ := rest.ret_inv
    cases List.mem_singleton.mp read
  | some currentHash =>
    simp only [Prog.ret_bind] at rest
    split at rest
    · -- the account has a password already
      rename_i other
      obtain ⟨h₁, e, h₂, split, label, before, step⟩ := at_ (o := .inr .selectAdminHash) (r := some currentHash)
        (by rw [eq]; simp)
      obtain ⟨u, there, admin, -, has⟩ := read_adminHash step
      have names := before.preserves (I := fun s => (s.world.1.users.map User.username).Nodup)
        (fun _ _ => usernames_step) unique
      have claimed : Claimed e.pre.world := by
        rintro v there' ⟨admin', -, seeded⟩
        obtain rfl := List.inj_on_of_nodup_map names there' there (admin'.trans admin.symm)
        simp [has] at seeded
        simp [seeded] at other
      refine claimed_after run start salted split ?_
      exact claimed_step (before.snoc (label ▸ step)) start (salted.of_subset (by simp [split])) claimed
    · obtain ⟨password, l₁, rfl, made⟩ := rest.op_inv
      obtain ⟨r, l₂, rfl, rest₂⟩ := made.op_inv
      cases r with
      | error reason => exact absurd (by simp) (hashed password reason)
      | ok newHash =>
        obtain ⟨r, l₃, rfl, -⟩ := rest₂.op_inv
        cases r with
        | error reason => exact absurd (by simp) (updated (.bootstrapPassword newHash) reason)
        | ok n =>
          obtain ⟨h₁, e, h₂, split, label, before, step⟩ :=
            at_ (o := .inr (.updateAccount (.bootstrapPassword newHash))) (r := .ok n) (by rw [eq]; simp)
          subst split
          obtain ⟨made, ⟨-, hash_of⟩, -⟩ := permitted_at run start label
          have fits := salted_of_hashed (salted.of_subset (by simp)) ⟨made, hash_of⟩
          exact claimed_after run start salted rfl (claimed_of_update fits step)

end runs

namespace Small

def seeded : State :=
  ⟨({ users := [{ admin with passwordHash := some (adminPlaceholderHashPrefix ++ "$x") }], ids := [1], now := 0 },
    { contacts := [⟨1, "admin@localhost", none, none⟩] }), []⟩

/-- Two starts at once, of which the second sets the password, and a third after a restart. -/
def threeStarts : List (Move (front settings).player) :=
  [.call .bootstrapAdminPassword, .call .bootstrapAdminPassword, .run 0 (.plain .ok), .run 1 (.plain .ok),
    .run 0 (.plain (.text "first")), .run 1 (.plain (.text "second")), .run 0 (.plain (.text "hash1")),
    .run 1 (.plain (.text "hash2")), .run 1 (.plain .ok), .run 0 (.plain .ok), .run 1 (.plain .ok), .restart,
    .call .bootstrapAdminPassword, .run 2 (.plain .ok)]

def starts : History := (front settings).player.history seeded threeStarts

/-- The test of `Salted`. -/
def isSalted (e : Ev) : Bool :=
  match e.label with
  | .op _ (.inl (.hashPassword _)) (.ok hash) => !isPlaceholder hash
  | _ => true

end Small

end PatchManager.Accounts
