import PatchManager.Web.HealthChecks

/-! # Partial updates of a health check

The `UPDATE` replaces the fields that the request has and no others.  The list that decides
whether there is anything to update has all fields but the target host, so a request that names a
new target and nothing else is refused.

Main results:

* `update_honours_iff`: a request is honoured, whatever the table holds and the statements answer,
  unless it is one of those.
* `targetOnly_refused`: one of those.
-/

namespace PatchManager.HealthChecks

open PatchManager.Conc

variable {crypto : Crypto} {w w' : World} {l : List (Exchange Op Op.Resp)} {auth : AuthUser} {hostId checkId : Uuid}
  {req : UpdateHealthCheckRequest} {result : Option (Except ApiError Unit)}

/-! ## What is asked of the handler -/

/-- The fields of the request are those of the new row; the others are as they were. -/
structure Replaced (crypto : Crypto) (req : UpdateHealthCheckRequest) (old new : HealthCheck) : Prop where
  name : new.name = req.name.getD old.name
  enabled : new.enabled = req.enabled.getD old.enabled
  serviceName : new.serviceName = req.serviceName.or old.serviceName
  url : new.url = req.url.or old.url
  expectedBody : new.expectedBody = req.expectedBody.or old.expectedBody
  ignoreCertErrors : new.ignoreCertErrors = req.ignoreCertErrors.or old.ignoreCertErrors
  basicAuthUser : new.basicAuthUser = req.basicAuthUser.or old.basicAuthUser
  targetHostId : new.targetHostId = req.targetHostId.or old.targetHostId
  newPass : ∀ pass ∈ req.basicAuthPass, ∃ ciphertext ∈ new.basicAuthPassEncrypted, ∃ nonce ∈ new.basicAuthPassNonce,
    crypto.isEncryption pass ciphertext nonce = true
  oldPass : req.basicAuthPass = none → new.basicAuthPassEncrypted = old.basicAuthPassEncrypted ∧
    new.basicAuthPassNonce = old.basicAuthPassNonce
  hostId : new.hostId = old.hostId
  checkType : new.checkType = old.checkType
  createdAt : new.createdAt = old.createdAt

/-- A success has stored the fields and touched no other check; a request that has a field is not
    refused for having none. -/
structure Honours (crypto : Crypto) (hostId checkId : Uuid) (req : UpdateHealthCheckRequest) (w w' : World)
    (result : Option (Except ApiError Unit)) : Prop where
  stored : result = some (.ok ()) → ∃ old new, w.find checkId hostId = some old ∧ w'.checks checkId = some new ∧
    Replaced crypto req old new ∧ ∀ other ≠ checkId, w'.checks other = w.checks other
  accepted : req ≠ {} → result ≠ some (.error noFields)

/-! ## The steps of the handler -/

theorem perform_serves {o : Op} {r : o.Resp} (serves : Serves (healthChecks crypto) w (perform o) l (some r) w') :
    ∃ a, execute crypto w o a = some (r, w') := by
  obtain ⟨-, -, none⟩ | ⟨a, answer, w₁, rest, executed, later, -⟩ := serves.op_inv
  · cases none
  · obtain ⟨-, rfl, none | eq⟩ := later.ret_inv
    · cases none
    · obtain rfl := Option.some.inj eq
      exact ⟨a, executed⟩

/-- A statement has answered and the handler goes on, or it returns the error in its place. -/
theorem orError_cases {α β : Type} {err : ApiError} {p : Proc (Except String α)}
    {rest : α → Proc (Except ApiError β)} {r : Except ApiError β}
    (serves : Serves (healthChecks crypto) w ((orError err p).attempt rest) l (some r) w') :
    (∃ l₁ l₂ value w₁, Serves (healthChecks crypto) w p l₁ (some (.ok value)) w₁ ∧
      Serves (healthChecks crypto) w₁ (rest value) l₂ (some r) w') ∨
    (r = .error err ∧ ∃ l₁ e, Serves (healthChecks crypto) w p l₁ (some (.error e)) w') := by
  have answered {l : List (Exchange Op Op.Resp)} {w' : World} {r : Except ApiError α}
      (serves : Serves (healthChecks crypto) w (orError err p) l (some r) w') :
      ∃ answer, Serves (healthChecks crypto) w p l (some answer) w' ∧ r = answer.mapError fun _ => err := by
    obtain ⟨first, asked, none | mapped⟩ := serves.map_inv
    · cases none
    · obtain ⟨answer, rfl, eq⟩ := Option.map_eq_some_iff.mp mapped.symm
      exact ⟨answer, asked, eq.symm⟩
  obtain ⟨l₁, value, w₁, l₂, first, second, -⟩ | ⟨e, first, ended⟩ | ⟨none, -⟩ := serves.attempt_cases
  · obtain ⟨answer, asked, eq⟩ := answered first
    cases answer with
    | ok value' =>
      cases eq
      exact .inl ⟨l₁, l₂, value, w₁, asked, second⟩
    | error e => cases eq
  · obtain ⟨answer, asked, eq⟩ := answered first
    obtain rfl : r = .error e := by simpa using ended
    cases answer with
    | ok value => cases eq
    | error e' =>
      cases eq
      exact .inr ⟨rfl, l, e', asked⟩
  · cases none

def Op.writes : Op → Bool
  | .updateCheck _ _ _ _ => true
  | _ => false

/-- Only the `UPDATE` changes anything. -/
theorem execute_keeps {o : Op} {a : Answer} {r : o.Resp} (executed : execute crypto w o a = some (r, w'))
    (reads : o.writes = false) : w' = w := by
  cases o with
  | updateCheck checkId hostId req pass => cases reads
  | targetHealthy id =>
    cases a with
    | ok =>
      obtain ⟨_, -, eq⟩ := Option.map_eq_some_iff.mp executed
      exact (Prod.mk.inj eq).2.symm
    | failed | encrypted => cases executed <;> rfl
  | encrypt pass =>
    cases a with
    | encrypted secret =>
      obtain ⟨-, eq⟩ := Option.ite_none_right_eq_some.mp executed
      exact (Prod.mk.inj (Option.some.inj eq)).2.symm
    | ok | failed => cases executed <;> rfl
  | checkExists | targetExists | loadOrCreateKey | logEvent => cases a <;> cases executed <;> rfl

theorem asked_keeps {o : Op} {r : o.Resp} (asked : Serves (healthChecks crypto) w (perform o) l (some r) w')
    (reads : o.writes = false) : w' = w := by
  obtain ⟨a, executed⟩ := perform_serves asked
  exact execute_keeps executed reads

/-- An error that is not the one for a request without fields. -/
def Other {α : Type} (r : Except ApiError α) : Prop := ∃ e, r = .error e ∧ e ≠ noFields

theorem other_of_ret {α : Type} {e : ApiError} {r : Except ApiError α} (ne : e ≠ noFields)
    (serves : Serves (healthChecks crypto) w (.ret (.error e)) l (some r) w') : w' = w ∧ Other r := by
  obtain ⟨-, rfl, eq⟩ := serves.ret_inv
  exact ⟨rfl, e, by simpa using eq, ne⟩

theorem checkTarget_serves {target : Option Uuid} {r : Except ApiError Unit}
    (serves : Serves (healthChecks crypto) w (checkTarget target) l (some r) w') : w' = w ∧ (r = .ok () ∨ Other r) := by
  cases target with
  | none =>
    obtain ⟨-, rfl, eq⟩ := serves.ret_inv
    exact ⟨rfl, .inl (by simpa using eq)⟩
  | some tid =>
    obtain ⟨_, _, found, w₁, asked, rest⟩ | ⟨rfl, _, _, asked⟩ := orError_cases serves
    · obtain rfl := asked_keeps (o := .targetExists tid) asked rfl
      split at rest
      · exact (other_of_ret (by decide) rest).imp_right .inr
      obtain ⟨_, _, healthy, w₁, asked', last⟩ | ⟨rfl, _, _, asked'⟩ := orError_cases rest
      · obtain rfl := asked_keeps (o := .targetHealthy tid) asked' rfl
        split at last
        · exact (other_of_ret (by decide) last).imp_right .inr
        · obtain ⟨-, rfl, eq⟩ := last.ret_inv
          exact ⟨rfl, .inl (by simpa using eq)⟩
      · exact ⟨asked_keeps (o := .targetHealthy tid) asked' rfl, .inr ⟨_, rfl, by decide⟩⟩
    · exact ⟨asked_keeps (o := .targetExists tid) asked rfl, .inr ⟨_, rfl, by decide⟩⟩

/-- What is stored for a password, if there is one. -/
def Encrypts (crypto : Crypto) (plain : Option String) (pass : Option Encrypted) : Prop :=
  pass.isSome = plain.isSome ∧ ∀ p ∈ plain, ∀ secret ∈ pass, crypto.isEncryption p secret.ciphertext secret.nonce = true

theorem encryption_of_execute {plain : String} {a : Answer} {secret : Encrypted}
    (executed : execute crypto w (.encrypt plain) a = some (.ok secret, w')) :
    crypto.isEncryption plain secret.ciphertext secret.nonce = true := by
  cases a with
  | encrypted given =>
    obtain ⟨good, same⟩ := Option.ite_none_right_eq_some.mp executed
    cases same
    exact good
  | ok | failed => cases executed

theorem encryptPass_serves {plain : Option String} {r : Except ApiError (Option Encrypted)}
    (serves : Serves (healthChecks crypto) w (encryptPass plain) l (some r) w') :
    w' = w ∧ ((∃ pass, r = .ok pass ∧ Encrypts crypto plain pass) ∨ Other r) := by
  cases plain with
  | none =>
    obtain ⟨-, rfl, eq⟩ := serves.ret_inv
    exact ⟨rfl, .inl ⟨none, by simpa using eq, rfl, nofun⟩⟩
  | some p =>
    obtain ⟨_, _, _, w₁, asked, rest⟩ | ⟨rfl, _, _, asked⟩ := orError_cases serves
    · obtain rfl := asked_keeps (o := .loadOrCreateKey) asked rfl
      obtain ⟨_, _, secret, w₁, asked', last⟩ | ⟨rfl, _, _, asked'⟩ := orError_cases rest
      · obtain ⟨a, executed⟩ := perform_serves (o := .encrypt p) asked'
        obtain rfl := execute_keeps executed rfl
        obtain ⟨-, rfl, eq⟩ := last.ret_inv
        refine ⟨rfl, .inl ⟨some secret, by simpa using eq, rfl, ?_⟩⟩
        rintro _ ⟨⟩ _ ⟨⟩
        exact encryption_of_execute executed
      · exact ⟨asked_keeps (o := .encrypt p) asked' rfl, .inr ⟨_, rfl, by decide⟩⟩
    · exact ⟨asked_keeps (o := .loadOrCreateKey) asked rfl, .inr ⟨_, rfl, by decide⟩⟩

/-- How a request ends that has an answer. -/
inductive Ends (crypto : Crypto) (auth : AuthUser) (hostId checkId : Uuid) (req : UpdateHealthCheckRequest)
    (w w' : World) : Except ApiError Unit → Prop
  | updated {row : HealthCheck} {pass : Option Encrypted} (found : w.find checkId hostId = some row)
      (encrypts : Encrypts crypto req.basicAuthPass pass)
      (set : w'.checks = Function.update w.checks checkId (some (row.update req pass w.now))) :
      Ends crypto auth hostId checkId req w w' (.ok ())
  | empty {pass : Option Encrypted} (writer : auth.role.canWrite = true)
      (encrypts : Encrypts crypto req.basicAuthPass pass) (none : setClauses req pass = []) :
      Ends crypto auth hostId checkId req w w' (.error noFields)
  | refused {r : Except ApiError Unit} (other : Other r) : Ends crypto auth hostId checkId req w w' r

/-- An `UPDATE` that has found a row has set it. -/
theorem update_of_execute {pass : Option Encrypted} {a : Answer} {affected : Nat}
    (executed : execute crypto w (.updateCheck checkId hostId req pass) a = some (.ok affected, w')) (some' : affected ≠ 0) :
    ∃ row, w.find checkId hostId = some row ∧
      w'.checks = Function.update w.checks checkId (some (row.update req pass w.now)) := by
  cases a with
  | ok =>
    simp only [execute] at executed
    cases found : w.find checkId hostId with
    | some row =>
      rw [found] at executed
      cases executed
      exact ⟨row, rfl, rfl⟩
    | none =>
      rw [found] at executed
      cases executed
      exact absurd rfl some'
  | failed | encrypted => cases executed

theorem updateHealthCheck_ends {r : Except ApiError Unit}
    (serves : Serves (healthChecks crypto) w (updateHealthCheck auth hostId checkId req) l (some r) w') :
    Ends crypto auth hostId checkId req w w' r := by
  rw [updateHealthCheck] at serves
  cases writer : auth.role.canWrite with
  | false =>
    rw [writer] at serves
    exact .refused (other_of_ret (by decide) serves).2
  | true =>
    rw [writer] at serves
    obtain ⟨_, _, found, w₁, asked, rest⟩ | ⟨rfl, -⟩ := orError_cases serves
    swap
    · exact .refused ⟨_, rfl, by decide⟩
    obtain rfl := asked_keeps (o := .checkExists checkId hostId) asked rfl
    split at rest
    · exact .refused (other_of_ret (by decide) rest).2
    obtain ⟨_, _, w₂, _, target, rest', -⟩ | ⟨e, target, eq⟩ | ⟨none, -⟩ := rest.attempt_cases
    rotate_left
    · obtain rfl : r = .error e := by simpa using eq
      exact .refused ((checkTarget_serves target).2.resolve_left nofun)
    · cases none
    obtain ⟨rfl, -⟩ := checkTarget_serves target
    obtain ⟨_, pass, w₃, _, secret, last, -⟩ | ⟨e, secret, eq⟩ | ⟨none, -⟩ := rest'.attempt_cases
    rotate_left
    · obtain rfl : r = .error e := by simpa using eq
      obtain ⟨_, ⟨⟩, -⟩ | ⟨_, ⟨⟩, ne⟩ := (encryptPass_serves secret).2
      exact .refused ⟨_, rfl, ne⟩
    · cases none
    obtain ⟨rfl, encrypted⟩ := encryptPass_serves secret
    have encrypts : Encrypts crypto req.basicAuthPass pass := by
      obtain ⟨_, ⟨⟩, encrypts⟩ | ⟨_, ⟨⟩, -⟩ := encrypted
      exact encrypts
    split at last
    case isTrue none =>
      obtain ⟨-, rfl, eq⟩ := last.ret_inv
      obtain rfl : r = .error noFields := by simpa using eq
      exact .empty writer encrypts none
    obtain ⟨_, _, affected, w₄, update, done⟩ | ⟨rfl, -⟩ := orError_cases last
    swap
    · exact .refused ⟨_, rfl, by decide⟩
    split at done
    · exact .refused (other_of_ret (by decide) done).2
    next some' =>
      obtain ⟨_, _, w₅, _, logged, returned, -⟩ | ⟨none, -⟩ := done.bind_inv
      swap
      · cases none
      obtain rfl := asked_keeps (o := .logEvent .healthCheckUpdated hostId checkId req.targetHostId) logged rfl
      obtain ⟨-, rfl, eq⟩ := returned.ret_inv
      obtain rfl : r = .ok () := by simpa using eq
      obtain ⟨a, executed⟩ := perform_serves (o := .updateCheck checkId hostId req pass) update
      obtain ⟨row, found, set⟩ := update_of_execute executed some'
      exact .updated found encrypts set

/-! ## What becomes of a request -/

theorem HealthCheck.update_replaced {row : HealthCheck} {pass : Option Encrypted}
    (encrypts : Encrypts crypto req.basicAuthPass pass) (now : Time) : Replaced crypto req row (row.update req pass now) where
  name := rfl
  enabled := rfl
  serviceName := rfl
  url := rfl
  expectedBody := rfl
  ignoreCertErrors := rfl
  basicAuthUser := rfl
  targetHostId := rfl
  newPass := by
    intro plain given
    obtain ⟨present, good⟩ := encrypts
    rw [given] at present
    obtain ⟨secret, rfl⟩ := Option.isSome_iff_exists.mp present
    exact ⟨_, rfl, _, rfl, good plain given secret rfl⟩
  oldPass := by
    intro none
    obtain ⟨present, -⟩ := encrypts
    rw [none, Option.isSome_none, Option.isSome_eq_false_iff, Option.isNone_iff_eq_none] at present
    subst present
    exact ⟨rfl, rfl⟩
  hostId := rfl
  checkType := rfl
  createdAt := rfl

/-- The list of clauses does not tell a request for a new target from one for nothing. -/
theorem setClauses_eq_nil_iff {pass : Option Encrypted} (present : pass.isSome = req.basicAuthPass.isSome) :
    setClauses req pass = [] ↔ ∃ target, req = { targetHostId := target } := by
  constructor
  · intro empty
    obtain ⟨name, enabled, serviceName, url, expectedBody, ignoreCertErrors, user, plain, target⟩ := req
    simp only [setClauses, present, List.append_eq_nil_iff, ite_eq_right_iff, reduceCtorEq, imp_false, Bool.not_eq_true,
      Option.isSome_eq_false_iff, Option.isNone_iff_eq_none] at empty
    obtain ⟨⟨⟨⟨⟨⟨⟨rfl, rfl⟩, rfl⟩, rfl⟩, rfl⟩, rfl⟩, rfl⟩, rfl⟩ := empty
    exact ⟨target, rfl⟩
  · rintro ⟨target, rfl⟩
    simp [setClauses, present]

/-- A request that only sets the target is refused, where nothing else is wrong with it. -/
theorem target_refused {tid : Uuid} {row : HealthCheck} (writer : auth.role.canWrite = true)
    (found : w.find checkId hostId = some row) (healthy : w.hosts tid = some .healthy) :
    ∃ l, Serves (healthChecks crypto) w (updateHealthCheck auth hostId checkId { targetHostId := some tid }) l
      (some (.error noFields)) w := by
  refine ⟨[⟨.checkExists checkId hostId, .ok true⟩, ⟨.targetExists tid, .ok true⟩, ⟨.targetHealthy tid, .ok true⟩], ?_⟩
  rw [updateHealthCheck, writer]
  have check : (healthChecks crypto).execute w (.checkExists checkId hostId) Answer.ok = some (.ok true, w) := by
    simp [healthChecks, execute, found]
  have target : (healthChecks crypto).execute w (.targetExists tid) Answer.ok = some (.ok true, w) := by
    simp [healthChecks, execute, healthy]
  have health : (healthChecks crypto).execute w (.targetHealthy tid) Answer.ok = some (.ok true, w) := by
    simp [healthChecks, execute, healthy]
  exact .op check (.op target (.op health .ret))

/-- A request is honoured, whatever the tables hold and the statements answer, unless it is one
    that sets the target of a check and nothing else. -/
theorem update_honours_iff (crypto : Crypto) (auth : AuthUser) (hostId checkId : Uuid) (req : UpdateHealthCheckRequest) :
    (∀ w w' l result, Serves (healthChecks crypto) w (updateHealthCheck auth hostId checkId req) l result w' →
      Honours crypto hostId checkId req w w' result) ↔
    (auth.role.canWrite = true → ∀ tid, req ≠ { targetHostId := some tid }) := by
  constructor
  · rintro honours writer tid rfl
    let row : HealthCheck :=
      { hostId, name := "", checkType := .service, enabled := true, serviceName := none, url := none, expectedBody := none
        ignoreCertErrors := none, basicAuthUser := none, basicAuthPassEncrypted := none, basicAuthPassNonce := none
        targetHostId := none, createdAt := 0, updatedAt := 0 }
    let w : World := { checks := fun _ => some row, hosts := fun _ => some .healthy, now := 0 }
    have found : w.find checkId hostId = some row := by simp [World.find, w, row]
    obtain ⟨l, serves⟩ := target_refused writer found (rfl : w.hosts tid = some .healthy)
    exact (honours w w l _ serves).accepted (by simp) rfl
  · intro other w w' l result serves
    cases result with
    | none => exact ⟨nofun, nofun⟩
    | some r =>
      cases updateHealthCheck_ends serves with
      | @updated row pass found encrypts set =>
        refine ⟨fun _ => ⟨row, row.update req pass w.now, found, ?_, row.update_replaced encrypts w.now, ?_⟩, nofun⟩
        · simp [set]
        · intro other ne
          simp [set, ne]
      | empty writer encrypts none =>
        obtain ⟨target, rfl⟩ := (setClauses_eq_nil_iff encrypts.1).mp none
        refine ⟨nofun, fun field => ?_⟩
        cases target with
        | none => exact absurd rfl field
        | some tid => exact absurd rfl (other writer tid)
      | refused other =>
        obtain ⟨e, rfl, ne⟩ := other
        exact ⟨nofun, by simpa using fun _ => ne⟩

/-- A service is checked on its own host, number 2, and host 3 is healthy. -/
def twoHosts : World where
  checks id := if id = 1 then some
    { hostId := 2, name := "web", checkType := .service, enabled := true, serviceName := some "nginx", url := none
      expectedBody := none, ignoreCertErrors := none, basicAuthUser := none, basicAuthPassEncrypted := none
      basicAuthPassNonce := none, targetHostId := none, createdAt := 0, updatedAt := 0 } else none
  hosts id := if id = 3 then some .healthy else none
  now := 0

/-- The administrator names it as the new target of the check. -/
theorem targetOnly_refused : ∃ l,
    Serves (healthChecks ⟨fun _ _ => none⟩) twoHosts
      (updateHealthCheck ⟨0, "admin", .admin⟩ 2 1 { targetHostId := some 3 }) l (some (.error noFields)) twoHosts ∧
    ¬Honours ⟨fun _ _ => none⟩ 2 1 { targetHostId := some 3 } twoHosts twoHosts (some (.error noFields)) := by
  have writer : (AuthUser.mk 0 "admin" .admin).role.canWrite = true := rfl
  have found : (twoHosts.find 1 2).isSome = true := rfl
  obtain ⟨row, found⟩ := Option.isSome_iff_exists.mp found
  have healthy : twoHosts.hosts 3 = some .healthy := rfl
  obtain ⟨l, serves⟩ := target_refused writer found healthy
  exact ⟨l, serves, fun honours => honours.accepted (by decide) rfl⟩

end PatchManager.HealthChecks
