import PatchManager.Auth.Lock
import PatchManager.Verified.Rotation

/-! # Guessing passwords

A login reads the failure counter with the account, checks the password, and writes the counter
afterwards; `force_change_password_handler` checks the password without looking at either the
counter or the lock.  Where every failing check is a login's, made on a row that still is as the
login has read it and with all earlier failing checks recorded, five of them lock the account.

Main results:

* `brute_force_bound`: the law under that condition.
* `six_guesses`: six password changes with a wrong password are all checked.
-/

namespace PatchManager.Auth

open PatchManager.Conc

variable {cfg : AuthSettings} {s t : State} {h : History} {u : Uuid}

/-- A password check of the account fails. -/
def fails (u : Uuid) (e : Ev) : Bool :=
  match e.label with
  | .op _ (.verifyPassword id _ _) false => id == u
  | _ => false

/-- A successful login, a change of the password or the end of a lockout. -/
inductive Milestone (u : Uuid) (e : Ev) : Prop
  | login {tid n : Nat} {now : Time}
      (label : e.label = .op tid (.updateUsers (.recordLogin now u)) (.ok n))
  | password {tid n : Nat} {hash : String}
      (label : e.label = .op tid (.updateUsers (.setPassword hash u)) (.ok n))
  | expiry {user : User} (after : e.post.world.user u = some user)
      (expired : user.lockExpired e.post.world.now = true)
      (before : ∀ user, e.pre.world.user u = some user → user.lockExpired e.pre.world.now = false)

structure BruteForceBound (h : History) : Prop where
  /-- between two milestones at most five checks fail -/
  bounded : ∀ u h₁ m h₂, h = h₁ ++ m ++ h₂ → (∀ e ∈ m, ¬ Milestone u e) → m.countP (fails u) ≤ 5
  /-- a request that starts while the account is locked does not check its password -/
  locked : ∀ u user, ∀ e ∈ h, ∀ tid f, e.Starts tid f → e.pre.world.user u = some user →
    user.locked e.pre.world.now = true →
      ∀ x ∈ h, ∀ password hash r, x.label ≠ .op tid (.verifyPassword u password hash) r

/-! ## The condition -/

/-- The counters of the account as the request knows them. -/
def known (l : Exchanges) : Option (Nat × Option Time) :=
  l.foldl (fun known x =>
    match x with
    | ⟨.selectLocalUser _, .ok (some user)⟩ => some user.counters
    | ⟨.updateUsers (.clearLock _), .ok _⟩ => some (0, none)
    | _ => known) none

/-- A statement has recorded a failing check of the account. -/
def records (u : Uuid) : Exchange Op Op.Resp → Bool
  | ⟨.updateUsers (.lockAccount _ _ id), .ok _⟩ => id == u
  | ⟨.updateUsers (.countFailure _ id), .ok _⟩ => id == u
  | _ => false

/-- The request, a login, has failed a check of the account `user` and has not recorded it. -/
def Unrecorded (user : User) (l : Exchanges) : Prop :=
  ∃ username l₁ l₂, l = l₁ ++ l₂ ∧ Rejected username user l₁ ∧ ∀ x ∈ l₂, records user.id x = false

structure Guarded (h : History) : Prop where
  /-- a lock is taken off, and a check fails, on a row that is as the request knows it -/
  current : ∀ h₁ e h₂ tid u, h = h₁ ++ e :: h₂ →
    ((∃ n, e.label = .op tid (.updateUsers (.clearLock u)) (.ok n)) ∨
      ∃ password hash, e.label = .op tid (.verifyPassword u password hash) false) →
    ∃ user, e.pre.world.user u = some user ∧ known (exchanges tid h₁) = some user.counters
  /-- when a check fails, every login has recorded its own -/
  recorded : ∀ h₁ e h₂ tid user, h = h₁ ++ e :: h₂ → fails user.id e = true →
    ¬ Unrecorded user (exchanges tid h₁)
  /-- no password change starts while the account is locked -/
  unlocked : ∀ e ∈ h, ∀ tid req u user, e.Starts tid (.forceChangePassword req) →
    e.pre.world.user u = some user → user.locked e.pre.world.now = true → req.username ≠ user.username
  /-- the lock under which a login starts stays until the login has read it -/
  stays : ∀ e ∈ h, ∀ tid req client u user, e.Starts tid (.login req client) →
    e.pre.world.user u = some user → user.locked e.pre.world.now = true → req.username = user.username →
      ∀ x ∈ h, ∀ o r, x.label = .op tid o r → ∃ user', x.pre.world.user u = some user' ∧
        user'.lockedUntil = user.lockedUntil ∧ user'.locked x.pre.world.now = true

/-! ## Counting -/

/-- No more than `bound` checks of the account have failed since its last milestone. -/
def Within (u : Uuid) (h : History) (bound : Nat) : Prop :=
  ∀ h₁ m, h = h₁ ++ m → (∀ e ∈ m, ¬ Milestone u e) → m.countP (fails u) ≤ bound

section within

variable {e : Ev} {bound bound' : Nat}

theorem Within.mono (within : Within u h bound) (more : bound ≤ bound') : Within u h bound' :=
  fun h₁ m split plain => Nat.le_trans (within h₁ m split plain) more

theorem within_nil : Within u [] 0 := by
  intro h₁ m split _
  obtain ⟨-, rfl⟩ := List.append_eq_nil_iff.mp split.symm
  simp

/-- A list that ends in an event is empty or ends in it. -/
theorem suffix_cases {A : Type} {l l₁ m : List A} {a : A} (split : l ++ [a] = l₁ ++ m) :
    m = [] ∨ ∃ m', m = m' ++ [a] ∧ l = l₁ ++ m' := by
  rcases List.eq_nil_or_concat m with rfl | ⟨m', x, rfl⟩
  · exact .inl rfl
  · rw [List.concat_eq_append, ← List.append_assoc] at split
    obtain ⟨front, last⟩ := List.append_inj' split rfl
    obtain rfl := List.singleton_inj.mp last
    exact .inr ⟨m', List.concat_eq_append, front⟩

theorem within_milestone (milestone : Milestone u e) : Within u (h ++ [e]) bound := by
  intro h₁ m split plain
  rcases suffix_cases split with rfl | ⟨m', rfl, -⟩
  · simp
  · exact absurd milestone (plain e (by simp))

theorem Within.snoc (within : Within u h bound) (passes : fails u e = false) :
    Within u (h ++ [e]) bound := by
  intro h₁ m split plain
  rcases suffix_cases split with rfl | ⟨m', rfl, front⟩
  · simp
  · have before := within h₁ m' front fun e mem => plain e (by simp [mem])
    simpa [List.countP_append, passes] using before

theorem Within.fail (within : Within u h bound) : Within u (h ++ [e]) (bound + 1) := by
  intro h₁ m split plain
  rcases suffix_cases split with rfl | ⟨m', rfl, front⟩
  · simp
  · have before := within h₁ m' front fun e mem => plain e (by simp [mem])
    rw [List.countP_append]
    have last : [e].countP (fails u) ≤ 1 := List.countP_le_length
    omega

end within

/-! ## What a login knows -/

theorem label_of_fails {e : Ev} (failing : fails u e = true) :
    ∃ tid password hash, e.label = .op tid (.verifyPassword u password hash) false := by
  unfold fails at failing
  split at failing
  · rename_i tid id password hash label
    obtain rfl := eq_of_beq failing
    exact ⟨tid, password, hash, label⟩
  · cases failing

/-- The counter a login goes by is at most the one it has read. -/
theorem known_of_admitted {username : String} {user : User} {l : Exchanges}
    (admitted : Admitted username user l) :
    ∃ attempts ≤ user.failedLoginAttempts, known l = some (attempts, none) := by
  cases admitted with
  | unlocked free => exact ⟨_, Nat.le_refl _, by simp [known, User.counters, free]⟩
  | expired lock expired => exact ⟨0, Nat.zero_le _, rfl⟩

theorem Admitted.head {username : String} {user : User} {l : Exchanges} (admitted : Admitted username user l) :
    ∃ rest, l = ⟨.selectLocalUser username, .ok (some user)⟩ :: rest := by
  cases admitted <;> exact ⟨_, rfl⟩

/-- The account was not locked when the login read it, or not any more when it read the clock. -/
theorem Admitted.lock_cases {username : String} {user : User} {l : Exchanges}
    (admitted : Admitted username user l) : user.lockedUntil = none ∨
      ∃ until_ now, user.lockedUntil = some until_ ∧ until_ ≤ now ∧ ⟨.utcNow, now⟩ ∈ l := by
  cases admitted with
  | unlocked free => exact .inl free
  | expired lock expired => exact .inr ⟨_, _, lock, expired, by simp⟩

/-- A login has read one account. -/
theorem user_of_admitted {username username' : String} {user user' : User} {l l' : Exchanges}
    (admitted : Admitted username user l) (admitted' : Admitted username' user' l')
    {r r' : Exchanges} (same : l ++ r = l' ++ r') : user' = user := by
  obtain ⟨_, rfl⟩ := admitted.head
  obtain ⟨_, rfl⟩ := admitted'.head
  have first := (List.cons.inj same).1
  simp only [Sigma.mk.injEq, Op.selectLocalUser.injEq] at first
  obtain ⟨rfl, eq⟩ := first
  exact (Option.some.inj (Except.ok.inj (eq_of_heq eq))).symm

/-! ## The invariant -/

/-- The account has been given out with a counter that fits its lock. -/
def Fits (u : Uuid) (s : State) : Prop :=
  ∀ row, s.world.user u = some row → row.lockedUntil = none → row.failedLoginAttempts < 5

/-- What holds of an account along a run that is guarded. -/
structure Held (u : Uuid) (h : History) (t : State) : Prop where
  bound : Within u h 5
  pending : ∀ tid user, user.id = u → Unrecorded user (exchanges tid h) →
    Within u h (user.failedLoginAttempts + 1)
  settled : (∀ tid user, user.id = u → ¬ Unrecorded user (exchanges tid h)) → ∀ row,
    t.world.user u = some row → row.lockedUntil = none → Within u h row.failedLoginAttempts
  expired : ∀ row, t.world.user u = some row → row.lockExpired t.world.now = true → Within u h 0
  unknown : u ∉ t.world.ids → Within u h 0

section steps

variable (initial : Initial s) (run : Run (accounts cfg).machine s h t) (guarded : Guarded h)
  {h₁ h₂ : History} {e : Ev} (split : h = h₁ ++ e :: h₂)

include initial run split

/-- The counter stays below five while the account is not locked. -/
theorem fits_step (before : Fits u e.pre) : Fits u e.post := by
  intro row found free
  have whole := split
  subst split
  obtain ⟨-, step, -⟩ := run.split_event
  rcases user_cases step found with ⟨tid, n, upd, old, label, own, there, rfl⟩ | ⟨old, there, same⟩ |
      ⟨-, same⟩
  · cases upd with
    | clearLock | recordLogin | setPassword => simp [UserUpdate.assign]
    | lockAccount => simp [UserUpdate.assign] at free
    | countFailure attempts id =>
      obtain ⟨task, -, req, client, user, -, -, -, -, few⟩ := run.shaped initial.tasks body_shaped label
      exact few
  · obtain ⟨attempts, lock⟩ := Prod.mk.inj same
    rw [attempts]
    exact before old there (lock ▸ free)
  · obtain ⟨attempts, -⟩ := Prod.mk.inj same
    simp [attempts]

include guarded

/-- A failing check. -/
theorem Held.fail (held : Held u h₁ e.pre) (fits : Fits u e.pre) (failing : fails u e = true) :
    Held u (h₁ ++ [e]) e.post := by
  obtain ⟨tid, password, hash, label⟩ := label_of_fails failing
  obtain ⟨row, found, knows⟩ := guarded.current h₁ e h₂ tid u split (.inr ⟨password, hash, label⟩)
  have others := fun tid user => guarded.recorded h₁ e h₂ tid user split
  subst split
  obtain ⟨before, step, -⟩ := run.split_event
  obtain ⟨task, -, shape_of⟩ := run.shaped initial.tasks body_shaped label
  rcases shape_of with ⟨req, client, user, -, admitted, rfl⟩ | ⟨req, stored, reset, -, eq⟩
  · obtain ⟨attempts, few, eq⟩ := known_of_admitted admitted
    rw [eq] at knows
    obtain ⟨rfl, free⟩ := Prod.mk.inj (Option.some.inj knows)
    have small := fits row found free.symm
    -- no check has failed that is not in the counter
    have counted : Within user.id (h₁ ++ [e]) (row.failedLoginAttempts + 1) := by
      refine (held.settled (fun tid user' same => ?_) row found free.symm).fail
      exact others tid user' (same ▸ failing)
    have own : exchanges tid (h₁ ++ [e]) =
        exchanges tid h₁ ++ [⟨.verifyPassword user.id password hash, false⟩] := by
      rw [exchanges_snoc, label]
      simp [Label.exchange?]
    rw [label] at step
    have same := world_of_verify step
    refine ⟨counted.mono (by omega), ?pending, ?settled, ?expired, ?unknown⟩
    case pending =>
      intro tid' user' same' unrecorded
      by_cases eq : tid' = tid
      · subst eq
        rw [own] at unrecorded
        obtain ⟨username, l₁, l₂, eq, ⟨l, _, _, admitted', rfl⟩, -⟩ := unrecorded
        rw [List.append_assoc] at eq
        obtain rfl := user_of_admitted admitted admitted' eq
        exact counted.mono (by omega)
      · have silent : exchanges tid' (h₁ ++ [e]) = exchanges tid' h₁ := by
          rw [exchanges_snoc, label]
          simp [Label.exchange?, Ne.symm eq]
        rw [silent] at unrecorded
        exact absurd unrecorded (others tid' user' (same' ▸ failing))
    case settled =>
      intro none
      refine absurd ?_ (none tid user rfl)
      rw [own]
      exact ⟨req.username, _, [], by simp, ⟨_, password, hash, admitted, rfl⟩, by simp⟩
    case expired =>
      intro row' found' expired
      rw [same] at found' expired
      obtain rfl : row = row' := Option.some.inj (found.symm.trans found')
      simp [User.lockExpired, ← free] at expired
    case unknown =>
      intro new
      rw [same] at new
      obtain ⟨mem, key⟩ := Sql.lookup_some found
      exact absurd (key ▸ (consistent_of_run before initial.consistent).userKnown row mem) new
  · rw [eq] at knows
    cases knows

omit initial run guarded split in
/-- An event that is no failing check leaves open only what was open. -/
theorem unrecorded_before (passes : fails u e = false) {tid : Nat} {user : User} (same : user.id = u)
    (unrecorded : Unrecorded user (exchanges tid (h₁ ++ [e]))) : Unrecorded user (exchanges tid h₁) := by
  rw [exchanges_snoc] at unrecorded
  cases exchange : e.label.exchange? tid with
  | none => simpa [exchange] using unrecorded
  | some x =>
    obtain ⟨username, l₁, l₂, eq, rejected, silent⟩ := unrecorded
    rw [exchange, Option.toList_some] at eq
    rcases suffix_cases eq with rfl | ⟨l₂, rfl, front⟩
    · obtain ⟨admitted, password, hash, -, rfl⟩ := rejected
      rw [List.append_nil] at eq
      obtain ⟨-, last⟩ := List.append_inj' eq rfl
      obtain rfl := List.singleton_inj.mp last
      have label := label_of_exchange exchange
      simp [fails, label, same] at passes
    · exact ⟨username, l₁, l₂, front, rejected, fun x mem => silent x (by simp [mem])⟩

omit initial run guarded split in
/-- An event that records nothing for the account leaves open what was open. -/
theorem unrecorded_after {tid : Nat} {user : User} (unrecorded : Unrecorded user (exchanges tid h₁))
    (silent : ∀ x, e.label.exchange? tid = some x → records user.id x = false) :
    Unrecorded user (exchanges tid (h₁ ++ [e])) := by
  obtain ⟨username, l₁, l₂, eq, rejected, all⟩ := unrecorded
  refine ⟨username, l₁, l₂ ++ (e.label.exchange? tid).toList, ?_, rejected, fun x mem => ?_⟩
  · rw [exchanges_snoc, eq, List.append_assoc]
  · rcases List.mem_append.mp mem with old | new
    · exact all x old
    · exact silent x (Option.mem_toList.mp new)

omit initial run guarded split in
theorem updates_of_records {tid : Nat} {x : Exchange Op Op.Resp} (exchange : e.label.exchange? tid = some x)
    (recording : records u x = true) :
    ∃ upd n, e.label = .op tid (.updateUsers upd) (.ok n) ∧ upd.id = u := by
  obtain ⟨o, r⟩ := x
  have label := label_of_exchange exchange
  cases o with
  | updateUsers upd =>
    cases r with
    | error => cases upd <;> cases recording
    | ok n =>
      refine ⟨upd, n, label, ?_⟩
      cases upd <;> first | exact eq_of_beq recording | cases recording
  | _ => cases recording

/-- The row of the account after a statement that is for it, which is no milestone. -/
theorem Held.updated (held : Held u h₁ e.pre) (passes : fails u e = false) (plain : ¬ Milestone u e)
    {tid n : Nat} {upd : UserUpdate} (label : e.label = .op tid (.updateUsers upd) (.ok n))
    (own : upd.id = u) {row : User} (found : e.post.world.user u = some row)
    (free : row.lockedUntil = none) : Within u (h₁ ++ [e]) row.failedLoginAttempts := by
  have current := guarded.current h₁ e h₂ tid u split
  subst split
  obtain ⟨before, step, -⟩ := run.split_event
  rw [label] at step
  subst own
  obtain ⟨old, there, rfl⟩ := row_of_update step found
  cases upd with
  | clearLock id =>
    -- the lock that is taken off has run out
    obtain ⟨old', there', knows⟩ := current (.inl ⟨n, label⟩)
    obtain rfl : old = old' := Option.some.inj (there.symm.trans there')
    obtain ⟨task, -, req, client, user, until_, now, -, eq, lock, expired, -⟩ :=
      run.shaped initial.tasks body_shaped label
    have read := clock_read before (show (⟨.utcNow, now⟩ : Exchange Op Op.Resp) ∈ exchanges tid h₁ by simp [eq])
    rw [eq] at knows
    have same : user.counters = old.counters := Option.some.inj knows
    have lock' : old.lockedUntil = some until_ := (congrArg Prod.snd same).symm.trans lock
    have past : old.lockExpired e.pre.world.now = true := by
      simpa [User.lockExpired, lock'] using Int.le_trans expired read
    exact (held.expired old there past).snoc passes
  | lockAccount => simp [UserUpdate.assign] at free
  | countFailure attempts id =>
    obtain ⟨task, -, req, client, user, -, rejected, rfl, rfl, -⟩ :=
      run.shaped initial.tasks body_shaped label
    exact (held.pending tid user rfl ⟨_, _, [], by simp, rejected, by simp⟩).snoc passes
  | recordLogin => exact absurd (.login label) plain
  | setPassword => exact absurd (.password label) plain

/-- An event that is neither a failing check nor a milestone. -/
theorem Held.plain (held : Held u h₁ e.pre) (passes : fails u e = false) (plain : ¬ Milestone u e) :
    Held u (h₁ ++ [e]) e.post := by
  have step : Step (accounts cfg).machine e.pre e.label e.post := run.step_of_mem (by simp [split])
  refine ⟨held.bound.snoc passes, ?pending, ?settled, ?expired, ?unknown⟩
  case pending =>
    intro tid user same unrecorded
    exact (held.pending tid user same (unrecorded_before passes same unrecorded)).snoc passes
  case expired =>
    intro row found expired
    by_cases before : ∃ old, e.pre.world.user u = some old ∧ old.lockExpired e.pre.world.now = true
    · obtain ⟨old, there, past⟩ := before
      exact (held.expired old there past).snoc passes
    · refine absurd (.expiry found expired fun old there => ?_) plain
      exact Bool.not_eq_true _ ▸ fun past => before ⟨old, there, past⟩
  case unknown => exact fun new => (held.unknown fun old => new (ids_grow step old)).snoc passes
  case settled =>
    intro none row found free
    by_cases own : ∃ tid upd n, e.label = .op tid (.updateUsers upd) (.ok n) ∧ upd.id = u
    · obtain ⟨tid, upd, n, label, own⟩ := own
      exact held.updated initial run guarded split passes plain label own found free
    · rcases user_cases step found with ⟨tid, n, upd, old, label, same, -⟩ | ⟨old, there, same⟩ | ⟨new, -⟩
      · exact absurd ⟨tid, upd, n, label, same⟩ own
      · obtain ⟨attempts, lock⟩ := Prod.mk.inj same
        rw [attempts]
        refine (held.settled (fun tid user key unrecorded => ?_) old there (lock ▸ free)).snoc passes
        refine none tid user key (unrecorded_after unrecorded fun x exchange => ?_)
        refine Bool.not_eq_true _ ▸ fun recording => own ?_
        obtain ⟨upd, n, label, same⟩ := updates_of_records exchange recording
        exact ⟨tid, upd, n, label, same.trans key⟩
      · exact ((held.unknown new).mono (Nat.zero_le _)).snoc passes

end steps

/-! ## Runs -/

/-- The service has just been started on accounts whose counters fit their locks. -/
structure InitialLocks (s : State) : Prop extends Initial s where
  fits : ∀ user ∈ s.world.users, user.lockedUntil = none → user.failedLoginAttempts < 5

section runs

variable (initial : InitialLocks s) (run : Run (accounts cfg).machine s h t) (guarded : Guarded h)

include initial run guarded

/-- The invariant holds at every point of a guarded run. -/
theorem held_of_prefix {h₁ h₂ : History} (split : h = h₁ ++ h₂) : ∃ t₁, Held u h₁ t₁ := by
  have whole := split
  subst split
  obtain ⟨t₁, first, -⟩ := run.split
  refine ⟨t₁, (first.preserves_history (I := fun h t => Held u h t ∧ Fits u t) ?_ ?_).1⟩
  · refine ⟨⟨within_nil.mono (Nat.zero_le _), fun _ _ _ _ => within_nil.mono (Nat.zero_le _),
      fun _ _ _ _ => within_nil.mono (Nat.zero_le _), fun _ _ _ => within_nil, fun _ => within_nil⟩, ?_⟩
    exact fun row found => initial.fits row (Sql.lookup_some found).1
  · rintro l₁ e ⟨l₂, rfl⟩ - ⟨held, fits⟩
    have split : l₁ ++ e :: l₂ ++ h₂ = l₁ ++ e :: (l₂ ++ h₂) := by simp
    refine ⟨?_, fits_step initial.toInitial run split fits⟩
    by_cases failing : fails u e = true
    · exact held.fail initial.toInitial run guarded split fits failing
    · by_cases milestone : Milestone u e
      · exact ⟨within_milestone milestone, fun _ _ _ _ => within_milestone milestone,
          fun _ _ _ _ => within_milestone milestone, fun _ _ _ => within_milestone milestone,
          fun _ => within_milestone milestone⟩
      · exact held.plain initial.toInitial run guarded split (Bool.not_eq_true _ ▸ failing) milestone

omit guarded in
/-- The account of an identifier has the same name when a request starts and later on. -/
theorem name_at {e y : Ev} {tid : Nat} {f : Fn} {o : Op} {r : o.Resp} {user row : User} (mem : e ∈ h)
    (starts : e.Starts tid f) (found : e.pre.world.user u = some user) (mem' : y ∈ h)
    (label : y.label = .op tid o r) (there : row ∈ y.pre.world.users) (same : row.id = u) :
    row.username = user.username := by
  obtain ⟨h₁, h₂, h₃, rfl⟩ := run.starts_before mem starts mem' label
  obtain ⟨before, step, rest⟩ := run.split_event
  obtain ⟨between, -, -⟩ := rest.split_event
  have consistent := consistent_of_run before initial.consistent
  obtain ⟨first, key⟩ := Sql.lookup_some found
  refine name_kept (between.cons step) (key ▸ consistent.userKnown user first) ?_ row there same
  intro other mem key'
  exact congrArg User.username (List.inj_on_of_nodup_map consistent.userIds mem first (key'.trans key.symm))

/-- A request that starts under a lock does not check the password. -/
theorem not_checked {e x : Ev} {tid : Nat} {f : Fn} {user : User} (mem : e ∈ h) (starts : e.Starts tid f)
    (found : e.pre.world.user u = some user) (locked : user.locked e.pre.world.now = true) (mem' : x ∈ h)
    {password hash : String} {r : Bool} : x.label ≠ .op tid (.verifyPassword u password hash) r := by
  intro label
  obtain ⟨l₁, l₂, split⟩ := List.append_of_mem mem'
  have upTo : Run (accounts cfg).machine s l₁ x.pre := by
    subst split
    exact run.split_event.1
  have member : ∀ y ∈ l₁, y ∈ h := fun y mem => by simp [split, mem]
  obtain ⟨task, at_, shape_of⟩ := (split ▸ run).shaped initial.tasks body_shaped label
  rw [run.root_at mem starts mem' label at_] at shape_of
  rcases shape_of with ⟨req, client, row, rfl, admitted, same⟩ | ⟨req, stored, reset, rfl, eq⟩
  · -- the login has read the account while it was locked
    obtain ⟨rest, head⟩ := admitted.head
    obtain ⟨m₁, y, m₂, rfl, selects⟩ := exists_event_of_mem
      (show ⟨Op.selectLocalUser req.username, .ok (some row)⟩ ∈ exchanges tid l₁ by simp [head])
    obtain ⟨before, step, -⟩ := upTo.split_event
    rw [selects] at step
    obtain ⟨there, named⟩ := row_of_selectLocalUser step
    have name := name_at initial run mem starts found (member y (by simp)) selects there same.symm
    have kept := guarded.stays e mem tid req client u user starts found locked (named.symm.trans name)
    obtain ⟨row', found', lock, still⟩ := kept y (member y (by simp)) _ _ selects
    rw [same, user_of_mem (consistent_of_run before initial.consistent) there] at found'
    obtain rfl := Option.some.inj found'
    rcases admitted.lock_cases with free | ⟨until_, now, until_eq, expired, read⟩
    · simp [User.locked, free] at still
    · -- and the clock before the lock had run out
      obtain ⟨n₁, z, n₂, eq, reads⟩ := exists_event_of_mem read
      have mem_z : z ∈ m₁ ++ y :: m₂ := by simp [eq]
      obtain ⟨row'', -, lock', still'⟩ := kept z (member z mem_z) _ _ reads
      have clock := upTo.step_of_mem mem_z
      rw [reads] at clock
      obtain ⟨_, _, _, -, ⟨a, done⟩, -⟩ := clock.op_inv
      have now_eq : z.pre.world.now = now := (Prod.mk.inj (Option.some.inj done)).1
      have until_eq' : row''.lockedUntil = some until_ := (lock'.trans lock.symm).trans until_eq
      simp only [User.locked, until_eq', Option.any_some, decide_eq_true_eq] at still'
      exact absurd (now_eq ▸ still') (Int.not_lt.mpr expired)
  · obtain ⟨m₁, y, m₂, rfl, selects⟩ := exists_event_of_mem
      (show ⟨Op.selectPassword req.username, .ok (some (u, stored, reset))⟩ ∈ exchanges tid l₁ by simp [eq])
    obtain ⟨before, step, -⟩ := upTo.split_event
    rw [selects] at step
    obtain ⟨row, there, same, named⟩ := row_of_selectPassword step
    have name := name_at initial run mem starts found (member y (by simp)) selects there same
    exact guarded.unlocked e mem tid req u user starts found locked (named.symm.trans name)

/-- In a guarded run guessing is bounded. -/
theorem brute_force_bound : BruteForceBound h := by
  refine ⟨?bounded, ?locked⟩
  case bounded =>
    intro u h₁ m h₂ split plain
    obtain ⟨t₁, held⟩ := held_of_prefix initial run guarded split (u := u)
    exact held.bound h₁ m rfl plain
  case locked =>
    intro u user e mem tid f starts found locked x mem' password hash r
    exact not_checked initial run guarded mem starts found locked mem'

end runs

/-! ## Schedules -/

namespace Small

theorem start_locks : InitialLocks start :=
  { start_initial with fits := by simp [start, user] }

/-- A wrong password and, in another request, the right one. -/
def secondTry : List (Move player) :=
  [.call (.login ⟨"ann", "guess", none⟩ client), .run 0 .ok, .run 0 (.truth false), .run 0 .ok,
    .call (.login ⟨"ann", "secret", none⟩ client), .run 1 .ok, .run 1 (.truth true),
    .run 1 (.text "access"), .run 1 (.text "a"), .run 1 .ok, .run 1 (.id 3), .run 1 .ok, .run 1 .ok]

/-- A wrong current password given to `force_change_password_handler`, as task `tid`. -/
def guess (tid : Nat) : List (Move player) :=
  [.call (.forceChangePassword ⟨"ann", "guess", "N3w-passw0rd"⟩), .run tid .ok, .run tid (.truth false)]

def sixGuesses : List (Move player) :=
  guess 0 ++ guess 1 ++ guess 2 ++ guess 3 ++ guess 4 ++ guess 5

/-- The row of the account is as request `tid` knows it. -/
def asKnown (h₁ : History) (e : Ev) (tid : Nat) (u : Uuid) : Bool :=
  (e.pre.world.user u).any fun user => known (exchanges tid h₁) == some user.counters

/-- A lock is taken off and a check fails on a row as it is known; no check has failed before
    one that fails, and nobody is locked. -/
def guardedAt (h₁ : History) (e : Ev) : Bool :=
  (e.pre.world.users.all fun user => !user.locked e.pre.world.now) &&
    match e.label with
    | .op tid (.updateUsers (.clearLock u)) (.ok _) => asKnown h₁ e tid u
    | .op tid (.verifyPassword u _ _) false => asKnown h₁ e tid u && h₁.all fun e => !fails u e
    | _ => true

theorem guarded_of_checks {h : History} (checks : checksAll guardedAt h = true) : Guarded h := by
  have free : ∀ e ∈ h, ∀ u user, e.pre.world.user u = some user → user.locked e.pre.world.now ≠ true := by
    intro e mem u user found locked
    obtain ⟨h₁, h₂, split⟩ := List.append_of_mem mem
    have test := test_of_checksAll checks split
    simp only [guardedAt, Bool.and_eq_true, List.all_eq_true] at test
    have unlocked := test.1 user (Sql.lookup_some found).1
    simp [locked] at unlocked
  have row : ∀ h₁ e tid u, asKnown h₁ e tid u = true →
      ∃ user, e.pre.world.user u = some user ∧ known (exchanges tid h₁) = some user.counters := by
    intro h₁ e tid u test
    obtain ⟨user, found, same⟩ := (Option.any_eq_true _ _).mp test
    exact ⟨user, found, eq_of_beq same⟩
  refine ⟨?current, ?recorded, ?unlocked, ?stays⟩
  case current =>
    rintro h₁ e h₂ tid u split (⟨n, label⟩ | ⟨password, hash, label⟩) <;>
      have test := test_of_checksAll checks split <;>
      simp only [guardedAt, label, Bool.and_eq_true] at test
    · exact row h₁ e tid u test.2
    · exact row h₁ e tid u test.2.1
  case recorded =>
    rintro h₁ e h₂ tid user split failing ⟨username, l₁, l₂, eq, ⟨_, password, hash, -, rfl⟩, -⟩
    obtain ⟨other, password', hash', label⟩ := label_of_fails failing
    have test := test_of_checksAll checks split
    simp only [guardedAt, label, Bool.and_eq_true, List.all_eq_true] at test
    obtain ⟨l₁, x, l₂, rfl, label'⟩ := exists_event_of_mem
      (show ⟨Op.verifyPassword user.id password hash, false⟩ ∈ exchanges tid h₁ by simp [eq])
    have quiet := test.2.2 x (by simp)
    simp [fails, label'] at quiet
  case unlocked =>
    intro e mem tid req u user _ found locked
    exact absurd locked (free e mem u user found)
  case stays =>
    intro e mem tid req client u user _ found locked
    exact absurd locked (free e mem u user found)

/-- The step may end a count of failing checks. -/
def mayEnd (e : Ev) : Bool :=
  (e.post.world.users.any fun user => user.lockedUntil.isSome) ||
    match e.label with
    | .op _ (.updateUsers _) _ => true
    | _ => false

theorem not_milestone {u : Uuid} {e : Ev} (passes : mayEnd e = false) : ¬ Milestone u e := by
  intro milestone
  cases milestone with
  | login label => simp [mayEnd, label] at passes
  | password label => simp [mayEnd, label] at passes
  | @expiry user after expired _ =>
    simp only [mayEnd, Bool.or_eq_false_iff, List.any_eq_false] at passes
    have free := passes.1 user (Sql.lookup_some after).1
    cases lock : user.lockedUntil <;> simp [User.lockExpired, lock] at expired free

end Small

theorem brute_force_bound_secondTry :
    BruteForceBound (Small.player.history Small.start Small.secondTry) := by
  have plays : (Small.player.play Small.start Small.secondTry).isSome = true := by decide +kernel
  exact brute_force_bound Small.start_locks (Small.player.run_of_play plays)
    (Small.guarded_of_checks (by decide +kernel))

/-- Six wrong passwords are checked without anything in between. -/
theorem six_guesses : ¬ ∀ (cfg : AuthSettings) (s t : State) (h : History), InitialLocks s →
    Run (accounts cfg).machine s h t → BruteForceBound h := by
  intro all
  have plays : (Small.player.play Small.start Small.sixGuesses).isSome = true := by decide +kernel
  have bounded := (all _ _ _ _ Small.start_locks (Small.player.run_of_play plays)).bounded
  have quiet : (Small.player.history Small.start Small.sixGuesses).all (fun e => !Small.mayEnd e) = true := by
    decide +kernel
  have count : (Small.player.history Small.start Small.sixGuesses).countP (fails 1) = 6 := by decide +kernel
  have few := bounded 1 [] (Small.player.history Small.start Small.sixGuesses) [] (by simp) fun e mem =>
    Small.not_milestone (by simpa using List.all_eq_true.mp quiet e mem)
  omega

end PatchManager.Auth
