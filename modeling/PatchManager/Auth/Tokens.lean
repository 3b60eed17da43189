import PatchManager.Auth.Shape
import Mathlib.Data.List.Nodup

/-! # What becomes of refresh tokens

A token hash is inserted once, a row keeps its identifier, owner and hash, and once revoked it
stays revoked.

Main results:

* `issued_once`: a hash that has been issued is not inserted again.
* `stays`: what holds of the rows of an issued hash, and is left alone by revocation, goes on holding.
-/

namespace PatchManager.Auth

open PatchManager.Conc

abbrev State := Sys World Op Op.Resp Fn
abbrev Ev := Event World Op Op.Resp Fn
abbrev History := List Ev

variable {cfg : AuthSettings} {s t : State} {h h₁ h₂ : History} {hash : String} {userId : Uuid}

/-- What the constraints of the two tables ensure. -/
structure World.Consistent (w : World) : Prop where
  userIds : (w.users.map User.id).Nodup
  userKnown : ∀ u ∈ w.users, u.id ∈ w.ids
  tokenHashes : (w.tokens.map RefreshToken.tokenHash).Nodup
  tokenKnown : ∀ row ∈ w.tokens, row.id ∈ w.ids

/-- The service has just been started on a database with accounts and tokens. -/
structure Initial (s : State) : Prop where
  tasks : s.tasks = []
  consistent : s.world.Consistent
  hashKnown : ∀ row ∈ s.world.tokens, row.tokenHash ∈ s.world.hashes

/-! ## Steps -/

/-- What one step does to the world. -/
inductive Moves (cfg : AuthSettings) (w : World) : Label Op Op.Resp Fn → World → Prop
  | users {tid n : Nat} {u : UserUpdate} :
      Moves cfg w (.op tid (.updateUsers u) (.ok n)) { w with users := u.update.apply w.users }
  | tokens {tid n : Nat} {u : TokenUpdate} :
      Moves cfg w (.op tid (.updateTokens u) (.ok n))
        { w with tokens := (u.update w.now).apply w.tokens }
  | insert {tid id userId : Nat} {hash : String} {expiresAt : Time} {client : Client}
      (owner : (w.user userId).isSome) (new : id ∉ w.ids) (unique : w.token hash = none) :
      Moves cfg w (.op tid (.insertToken userId hash expiresAt client) (.ok ()))
        { w with tokens := w.tokens ++ [newToken id userId hash expiresAt client], ids := id :: w.ids }
  | generate {tid : Nat} {raw : String} (new : cfg.sha256 raw ∉ w.hashes) :
      Moves cfg w (.op tid .generateToken raw) { w with hashes := cfg.sha256 raw :: w.hashes }
  | tick {micros : Nat} : Moves cfg w .drift { w with now := w.now + micros }
  | create {user : User} (new : user.id ∉ w.ids) :
      Moves cfg w .drift
        { w with users := w.users ++ [{ user with failedLoginAttempts := 0, lockedUntil := none }]
                 ids := user.id :: w.ids }
  | edit {user : User} : Moves cfg w .drift { w with users := w.users.map (·.edited user) }
  | delete {id : Uuid} :
      Moves cfg w .drift
        { w with users := w.users.filter (·.id ≠ id), tokens := w.tokens.filter (·.userId ≠ id) }
  | idle {l : Label Op Op.Resp Fn} : Moves cfg w l w

section steps

variable {l : Label Op Op.Resp Fn} {tid : Nat}

theorem moves_of_execute {w w' : World} {o : Op} {a : Answer} {r : o.Resp}
    (done : execute cfg.sha256 w o a = some (r, w')) : Moves cfg w (.op tid o r) w' := by
  cases o with
  | updateUsers u => cases a <;> cases done <;> first | exact .users | exact .idle
  | updateTokens u => cases a <;> cases done <;> first | exact .tokens | exact .idle
  | insertToken userId hash expiresAt client =>
    cases a with
    | id id =>
      simp only [execute, Option.ite_none_right_eq_some] at done
      obtain ⟨⟨owner, new, unique⟩, pair⟩ := done
      obtain ⟨rfl, rfl⟩ := Prod.mk.inj (Option.some.inj pair)
      exact .insert owner new unique
    | _ => cases done <;> exact .idle
  | generateToken =>
    cases a with
    | text raw =>
      simp only [execute, Option.ite_none_left_eq_some] at done
      obtain ⟨new, pair⟩ := done
      obtain ⟨rfl, rfl⟩ := Prod.mk.inj (Option.some.inj pair)
      exact .generate new
    | _ => cases done
  | selectUser id =>
    cases a with
    | failed reason => cases done; exact .idle
    | _ =>
      obtain ⟨u, -, pair⟩ := Option.map_eq_some_iff.mp done
      obtain ⟨rfl, rfl⟩ := Prod.mk.inj pair
      exact .idle
  | _ => cases a <;> cases done <;> exact .idle

theorem moves_of_step (step : Step (accounts cfg).machine s l t) : Moves cfg s.world l t.world := by
  rcases Service.world_cases step with ⟨tid, o, r, a, rfl, done⟩ | ⟨d, rfl, moved⟩ | ⟨rfl, moved⟩ |
      ⟨-, same⟩
  · exact moves_of_execute done
  · change t.world = change s.world d at moved
    rw [moved]
    cases d with
    | tick micros => exact .tick
    | createUser user =>
      simp only [change]
      split
      · rename_i new
        exact .create new.1
      · exact .idle
    | editUser user => exact .edit
    | deleteUser id => exact .delete
  · rw [show t.world = s.world from moved]
    exact .idle
  · rw [same]
    exact .idle

@[simp] theorem UserUpdate.assign_id (u : UserUpdate) (user : User) : (u.assign user).id = user.id := by
  cases u <;> rfl

theorem UserUpdate.keeps_id (u : UserUpdate) : u.update.Keeps User.id := fun user _ => u.assign_id user

theorem TokenUpdate.keeps {Column : Type} {f : RefreshToken → Column} (u : TokenUpdate) (now : Time)
    (apart : ∀ row revokedAt, f { row with revoked := true, revokedAt } = f row) :
    (u.update now).Keeps f := fun row _ => apart row _

theorem map_apply {Row Column : Type} {u : Sql.Update Row} {f : Row → Column} (keeps : u.Keeps f)
    (rows : List Row) : (u.apply rows).map f = rows.map f := by
  simp [Sql.Update.apply, Function.comp_def, keeps.onRow]

@[simp] theorem User.edited_id (u new : User) : (u.edited new).id = u.id := by
  unfold User.edited
  split <;> simp_all

theorem not_mem_map_of_known {Row : Type} {rows : List Row} {key : Row → Uuid} {ids : List Uuid} {id : Uuid}
    (known : ∀ row ∈ rows, key row ∈ ids) (new : id ∉ ids) : id ∉ rows.map key := by
  intro mem
  obtain ⟨row, there, rfl⟩ := List.mem_map.mp mem
  exact new (known row there)

theorem not_mem_hashes {w : World} (unique : w.token hash = none) :
    hash ∉ w.tokens.map RefreshToken.tokenHash := by
  intro mem
  obtain ⟨row, there, rfl⟩ := List.mem_map.mp mem
  simpa using List.find?_eq_none.mp unique row there

theorem nodup_snoc {A : Type} {l : List A} {a : A} (nodup : l.Nodup) (new : a ∉ l) : (l ++ [a]).Nodup := by
  refine List.nodup_append.mpr ⟨nodup, List.nodup_singleton a, fun b mem c last => ?_⟩
  obtain rfl := List.mem_singleton.mp last
  rintro rfl
  exact new mem

theorem Moves.consistent {w w' : World} {l : Label Op Op.Resp Fn} (moves : Moves cfg w l w')
    (before : w.Consistent) : w'.Consistent := by
  cases moves with
  | @users tid n u =>
    refine { before with userIds := ?_, userKnown := ?_ }
    · rw [map_apply u.keeps_id]
      exact before.userIds
    · intro user mem
      obtain ⟨old, there, rfl⟩ := Sql.Update.mem_apply.mp mem
      rw [u.keeps_id.onRow]
      exact before.userKnown old there
  | @tokens tid n u =>
    refine { before with tokenHashes := ?_, tokenKnown := ?_ }
    · have hashes : (u.update w.now).Keeps RefreshToken.tokenHash := u.keeps w.now fun _ _ => rfl
      rw [map_apply hashes]
      exact before.tokenHashes
    · intro row mem
      obtain ⟨old, there, rfl⟩ := Sql.Update.mem_apply.mp mem
      have ids : (u.update w.now).Keeps RefreshToken.id := u.keeps w.now fun _ _ => rfl
      rw [ids.onRow]
      exact before.tokenKnown old there
  | @insert tid id userId hash expiresAt client owner new unique =>
    refine { before with userKnown := ?_, tokenHashes := ?_, tokenKnown := ?_ }
    · exact fun user mem => List.mem_cons_of_mem _ (before.userKnown user mem)
    · rw [List.map_append]
      exact nodup_snoc before.tokenHashes (not_mem_hashes unique)
    · intro row mem
      rcases List.mem_append.mp mem with old | last
      · exact List.mem_cons_of_mem _ (before.tokenKnown row old)
      · obtain rfl := List.mem_singleton.mp last
        exact List.mem_cons_self
  | @create user new =>
    refine { before with userIds := ?_, userKnown := ?_, tokenKnown := ?_ }
    · rw [List.map_append]
      exact nodup_snoc before.userIds (not_mem_map_of_known before.userKnown new)
    · intro other mem
      rcases List.mem_append.mp mem with old | last
      · exact List.mem_cons_of_mem _ (before.userKnown other old)
      · obtain rfl := List.mem_singleton.mp last
        exact List.mem_cons_self
    · exact fun row mem => List.mem_cons_of_mem _ (before.tokenKnown row mem)
  | @edit user =>
    refine { before with userIds := ?_, userKnown := ?_ }
    · simpa [Function.comp_def] using before.userIds
    · intro other mem
      obtain ⟨old, there, rfl⟩ := List.mem_map.mp mem
      rw [User.edited_id]
      exact before.userKnown old there
  | delete =>
    exact
      { userIds := (List.filter_sublist.map _).nodup before.userIds
        userKnown := fun user mem => before.userKnown user (List.mem_of_mem_filter mem)
        tokenHashes := (List.filter_sublist.map _).nodup before.tokenHashes
        tokenKnown := fun row mem => before.tokenKnown row (List.mem_of_mem_filter mem) }
  | generate | tick | idle => exact { before with }

theorem consistent_of_run (run : Run (accounts cfg).machine s h t) (start : s.world.Consistent) :
    t.world.Consistent :=
  run.preserves (I := fun s => s.world.Consistent) (fun _ _ step => (moves_of_step step).consistent) start

/-- The row is the old one, perhaps revoked. -/
def RefreshToken.Becomes (old row : RefreshToken) : Prop :=
  row = old ∨ ∃ now, row = { old with revoked := true, revokedAt := some now }

theorem becomes_onRow (u : TokenUpdate) (now : Time) (old : RefreshToken) :
    old.Becomes ((u.update now).onRow old) := by
  unfold Sql.Update.onRow
  split
  · exact .inr ⟨now, rfl⟩
  · exact .inl rfl

/-- A row of tokens was there before or is inserted by this step. -/
theorem token_cases (step : Step (accounts cfg).machine s l t) {row : RefreshToken}
    (mem : row ∈ t.world.tokens) :
    (∃ old ∈ s.world.tokens, old.Becomes row) ∨
      ∃ tid expiresAt client, row.id ∉ s.world.ids ∧
        l = .op tid (.insertToken row.userId row.tokenHash expiresAt client) (.ok ()) := by
  have moves := moves_of_step step
  generalize t.world = w at moves mem
  cases moves with
  | @tokens tid n u =>
    obtain ⟨old, there, rfl⟩ := Sql.Update.mem_apply.mp mem
    exact .inl ⟨old, there, becomes_onRow u _ old⟩
  | @insert tid id userId hash expiresAt client owner new unique =>
    rcases List.mem_append.mp mem with old | last
    · exact .inl ⟨row, old, .inl rfl⟩
    · obtain rfl := List.mem_singleton.mp last
      exact .inr ⟨tid, expiresAt, client, new, rfl⟩
  | delete => exact .inl ⟨row, List.mem_of_mem_filter mem, .inl rfl⟩
  | _ => exact .inl ⟨row, mem, .inl rfl⟩

theorem hashes_grow (step : Step (accounts cfg).machine s l t) (taken : hash ∈ s.world.hashes) :
    hash ∈ t.world.hashes := by
  have moves := moves_of_step step
  generalize t.world = w at moves
  cases moves with
  | generate => exact List.mem_cons_of_mem _ taken
  | _ => exact taken

theorem ids_grow {id : Uuid} (step : Step (accounts cfg).machine s l t) (taken : id ∈ s.world.ids) :
    id ∈ t.world.ids := by
  have moves := moves_of_step step
  generalize t.world = w at moves
  cases moves with
  | insert | create => exact List.mem_cons_of_mem _ taken
  | _ => exact taken

/-- A revoking statement revokes the rows it is for. -/
theorem revoked_of_update {tid n : Nat} {u : TokenUpdate}
    (step : Step (accounts cfg).machine s (.op tid (.updateTokens u) (.ok n)) t) :
    t.world.tokens = (u.update s.world.now).apply s.world.tokens := by
  obtain ⟨_, _, _, _, ⟨a, done⟩, rfl⟩ := step.op_inv
  change execute cfg.sha256 s.world (.updateTokens u) a = _ at done
  cases a <;> cases done <;> rfl

end steps

/-! ## Hashes -/

/-- The hash of the token an operation has generated. -/
def Op.generated (cfg : AuthSettings) : (o : Op) → o.Resp → Option String
  | .generateToken, token => some (cfg.sha256 token)
  | _, _ => none

theorem generated_fresh {w w' : World} {o : Op} {r : o.Resp}
    (done : (accounts cfg).machine.exec w o r w') (generated : o.generated cfg r = some hash) :
    hash ∉ w.hashes ∧ hash ∈ w'.hashes := by
  obtain ⟨a, done⟩ := done
  cases o with
  | generateToken =>
    change execute cfg.sha256 w .generateToken a = _ at done
    cases a with
    | text raw =>
      simp only [execute, Option.ite_none_left_eq_some] at done
      obtain ⟨new, pair⟩ := done
      obtain ⟨rfl, rfl⟩ := Prod.mk.inj (Option.some.inj pair)
      obtain rfl := Option.some.inj generated
      exact ⟨new, List.mem_cons_self⟩
    | _ => cases done
  | _ => cases generated

/-- A token of the account has been stored under the hash: it was there at the start, or some
    request has inserted it. -/
def Issued (s : State) (h : History) (userId : Uuid) (hash : String) : Prop :=
  (∃ row ∈ s.world.tokens, row.userId = userId ∧ row.tokenHash = hash) ∨
    ∃ e ∈ h, ∃ tid expiresAt client, e.label = .op tid (.insertToken userId hash expiresAt client) (.ok ())

theorem Issued.append (issued : Issued s h₁ userId hash) : Issued s (h₁ ++ h₂) userId hash := by
  rcases issued with first | ⟨e, mem, label⟩
  · exact .inl first
  · exact .inr ⟨e, List.mem_append_left _ mem, label⟩

/-- What is in the table has been issued. -/
theorem issued_of_mem (run : Run (accounts cfg).machine s h t) {row : RefreshToken} (mem : row ∈ t.world.tokens) :
    Issued s h row.userId row.tokenHash := by
  induction run generalizing row with
  | nil => exact .inl ⟨row, mem, rfl, rfl⟩
  | @snoc h u v l _ step ih =>
    rcases token_cases step mem with ⟨old, there, becomes⟩ | ⟨tid, expiresAt, client, -, label⟩
    · have before := ih there
      rcases becomes with rfl | ⟨now, rfl⟩ <;> exact before.append
    · exact .inr ⟨⟨u, l, v⟩, by simp, tid, expiresAt, client, label⟩

section runs

variable (initial : Initial s) (run : Run (accounts cfg).machine s h t)

include initial run

/-- A request inserts a token it has generated, and inserts once. -/
theorem generated_of_insert {h₁ h₂ : History} {e : Ev} {tid : Nat} {o : Op} {r : o.Resp}
    (split : h = h₁ ++ e :: h₂) (label : e.label = .op tid o r) (inserts : o.inserts = some hash) :
    (∃ x ∈ exchanges tid h₁, x.1.generated cfg x.2 = some hash) ∧
      ∀ x ∈ exchanges tid h₁, x.1.inserts = none := by
  subst split
  obtain ⟨task, -, shape_of⟩ := run.shaped initial.tasks body_shaped label
  cases o with
  | insertToken userId hash' expiresAt client =>
    obtain rfl := Option.some.inj inserts
    obtain ⟨⟨⟨token, mem, eq⟩, fresh⟩, -⟩ := shape_of
    exact ⟨⟨_, mem, congrArg some eq⟩, fresh⟩
  | _ => cases inserts

theorem insert_once {h₁ h₂ h₃ : History} {e e' : Ev} {tid tid' : Nat} {o o' : Op} {r : o.Resp}
    {r' : o'.Resp} (split : h = h₁ ++ e :: (h₂ ++ e' :: h₃)) (label : e.label = .op tid o r)
    (label' : e'.label = .op tid' o' r') (first : o.inserts = some hash) : o'.inserts ≠ some hash :=
  run.uses_once (Op.generated cfg) Op.inserts (fun w hash => hash ∈ w.hashes)
    (fun _ _ _ _ _ done generated => generated_fresh done generated)
    (fun _ _ _ _ step taken => hashes_grow step taken)
    (fun _ _ _ _ _ _ _ split label inserts => generated_of_insert initial run split label inserts)
    split label label' first

/-- A hash that is taken at the start is not inserted. -/
theorem not_inserted_of_taken (taken : hash ∈ s.world.hashes) {e : Ev} (mem : e ∈ h) {tid : Nat} {o : Op}
    {r : o.Resp} (label : e.label = .op tid o r) : o.inserts ≠ some hash := by
  intro inserts
  obtain ⟨h₁, h₂, split⟩ := List.append_of_mem mem
  obtain ⟨⟨x, generated, eq⟩, -⟩ := generated_of_insert initial run split label inserts
  obtain ⟨l₁, y, l₂, rfl, label⟩ := exists_event_of_mem generated
  have whole : h = l₁ ++ y :: (l₂ ++ e :: h₂) := by simp [split]
  subst whole
  obtain ⟨before, step, -⟩ := run.split_event
  rw [label] at step
  obtain ⟨_, _, _, -, done, -⟩ := step.op_inv
  exact (generated_fresh done eq).1
    (before.preserves (I := fun s => hash ∈ s.world.hashes) (fun _ _ step => hashes_grow step) taken)

end runs

/-- A hash that has been issued is not inserted again. -/
theorem issued_once (initial : Initial s) (run : Run (accounts cfg).machine s (h₁ ++ h₂) t)
    (issued : Issued s h₁ userId hash) {e : Ev} (mem : e ∈ h₂) {tid : Nat} {o : Op} {r : o.Resp}
    (label : e.label = .op tid o r) : o.inserts ≠ some hash := by
  rcases issued with ⟨row, there, -, rfl⟩ | ⟨e', mem', tid', expiresAt, client, label'⟩
  · exact not_inserted_of_taken initial run (initial.hashKnown row there)
      (List.mem_append_right _ mem) label
  · obtain ⟨l₁, l₂, rfl⟩ := List.append_of_mem mem'
    obtain ⟨m₁, m₂, rfl⟩ := List.append_of_mem mem
    have split : l₁ ++ e' :: l₂ ++ (m₁ ++ e :: m₂) = l₁ ++ e' :: ((l₂ ++ m₁) ++ e :: m₂) := by simp
    exact insert_once initial run split label' label rfl

/-- A hash is issued to one account. -/
theorem issued_unique (initial : Initial s) (run : Run (accounts cfg).machine s h t) {userId' : Uuid}
    (issued : Issued s h userId hash) (issued' : Issued s h userId' hash) : userId' = userId := by
  rcases issued with ⟨row, there, rfl, same⟩ | ⟨e, mem, tid, expiresAt, client, label⟩ <;>
    rcases issued' with ⟨row', there', rfl, same'⟩ | ⟨e', mem', tid', expiresAt', client', label'⟩
  · exact congrArg RefreshToken.userId (List.inj_on_of_nodup_map initial.consistent.tokenHashes there'
      there (same'.trans same.symm))
  · exact absurd (congrArg some same.symm) (not_inserted_of_taken initial run
      (initial.hashKnown row there) mem' label')
  · exact absurd (congrArg some same'.symm) (not_inserted_of_taken initial run
      (initial.hashKnown row' there') mem label)
  · obtain ⟨l₁, l₂, eq⟩ := List.append_of_mem mem
    obtain ⟨m₁, m₂, eq'⟩ := List.append_of_mem mem'
    rcases split_cases (eq.symm.trans eq') with ⟨-, rfl, -⟩ | ⟨m, later, -⟩ | ⟨m, later, -⟩
    · rw [label] at label'
      simp only [Label.op.injEq, Op.insertToken.injEq] at label'
      exact label'.2.1.1.symm
    · exact absurd rfl (insert_once initial run (by rw [eq, later]) label label' rfl)
    · exact absurd rfl (insert_once initial run (by rw [eq', later]) label' label rfl)

/-- What holds of the rows of an issued hash goes on holding, when revocation leaves it alone. -/
theorem stays (initial : Initial s) (run : Run (accounts cfg).machine s (h₁ ++ h₂) t) {u : State}
    (rest : Run (accounts cfg).machine u h₂ t) (issued : Issued s h₁ userId hash)
    {P : RefreshToken → Prop} (kept : ∀ old row, old.Becomes row → P old → P row)
    (holds : ∀ row ∈ u.world.tokens, row.tokenHash = hash → P row) :
    ∀ row ∈ t.world.tokens, row.tokenHash = hash → P row := by
  refine rest.preserves (I := fun v => ∀ row ∈ v.world.tokens, row.tokenHash = hash → P row) ?_ holds
  intro e mem step before row there same
  rcases token_cases step there with ⟨old, there, becomes⟩ | ⟨tid, expiresAt, client, -, label⟩
  · refine kept old row becomes (before old there ?_)
    rcases becomes with rfl | ⟨now, rfl⟩ <;> exact same
  · exact absurd (congrArg some same) (issued_once initial run issued mem label)

/-- The same for the row with an identifier that has been given out. -/
theorem stays_id {id : Uuid} (run : Run (accounts cfg).machine s h t) (known : id ∈ s.world.ids)
    {P : RefreshToken → Prop} (kept : ∀ old row, old.Becomes row → P old → P row)
    (holds : ∀ row ∈ s.world.tokens, row.id = id → P row) :
    ∀ row ∈ t.world.tokens, row.id = id → P row := by
  refine (run.preserves (I := fun v => id ∈ v.world.ids ∧ ∀ row ∈ v.world.tokens, row.id = id → P row)
    ?_ ⟨known, holds⟩).2
  rintro e mem step ⟨known, before⟩
  refine ⟨ids_grow step known, fun row there same => ?_⟩
  rcases token_cases step there with ⟨old, there, becomes⟩ | ⟨tid, expiresAt, client, new, -⟩
  · refine kept old row becomes (before old there ?_)
    rcases becomes with rfl | ⟨now, rfl⟩ <;> exact same
  · exact absurd known (same ▸ new)

/-! ## Requests that present a token -/

/-- Request `tid` is a refresh that presents the token. -/
def Presents (h : History) (tid : Nat) (raw : String) : Prop :=
  ∃ e ∈ h, ∃ client, e.Starts tid (.refreshSession raw client)

/-- A token that has been selected was in the table. -/
theorem row_of_select {tid : Nat} {stored : StoredRefreshToken}
    (step : Step (accounts cfg).machine s (.op tid (.selectToken hash) (.ok (some stored))) t) :
    ∃ row ∈ s.world.tokens, row.tokenHash = hash ∧ row.stored = stored := by
  obtain ⟨_, _, _, _, ⟨a, done⟩, -⟩ := step.op_inv
  change execute cfg.sha256 s.world (.selectToken hash) a = _ at done
  have found : (s.world.token hash).map RefreshToken.stored = some stored := by
    cases a <;> simp only [execute, Option.some.injEq, Prod.mk.injEq, Except.ok.injEq, reduceCtorEq,
      false_and] at done <;> exact done.1
  obtain ⟨row, there, rfl⟩ := Option.map_eq_some_iff.mp found
  obtain ⟨mem, same⟩ := Sql.lookup_some there
  exact ⟨row, mem, same, rfl⟩

/-- The event at which a token was selected. -/
theorem select_of_mem {tid : Nat} {stored : StoredRefreshToken} (run : Run (accounts cfg).machine s h t)
    (mem : ⟨.selectToken hash, .ok (some stored)⟩ ∈ exchanges tid h) :
    ∃ h₁ e h₂, h = h₁ ++ e :: h₂ ∧ e.label = .op tid (.selectToken hash) (.ok (some stored)) ∧
      ∃ row ∈ e.pre.world.tokens, row.tokenHash = hash ∧ row.stored = stored := by
  obtain ⟨h₁, e, h₂, rfl, label⟩ := exists_event_of_mem mem
  obtain ⟨-, step, -⟩ := run.split_event
  rw [label] at step
  exact ⟨h₁, e, h₂, rfl, label, row_of_select step⟩

/-- What a request that presents a token has done when it inserts its successor. -/
theorem shape_of_presents (initial : Initial s) (run : Run (accounts cfg).machine s h t) {tid : Nat}
    {raw : String} (presents : Presents h tid raw) {e : Ev} {o : Op} {r : o.Resp}
    (split : h = h₁ ++ e :: h₂) (label : e.label = .op tid o r) :
    ∃ client, shape cfg (.refreshSession raw client) (exchanges tid h₁) o := by
  subst split
  obtain ⟨task, at_, shape_of⟩ := run.shaped initial.tasks body_shaped label
  obtain ⟨e₀, mem, client, starts⟩ := presents
  rw [run.root_at mem starts (by simp) label at_] at shape_of
  exact ⟨client, shape_of⟩

end PatchManager.Auth
