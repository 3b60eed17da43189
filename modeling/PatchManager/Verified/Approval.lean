import PatchManager.Web.Enrollment

/-! # Failed approvals

`approve_enrollment` writes to three tables without a transaction.  Once the host is inserted, a
failure leaves it, and the next approval of the request runs into it.

Main results:

* `approval_atomic_iff`: a failed approval leaves everything as it was exactly when it has failed
  before the host was inserted.
* `certificate_failure`: a certificate that cannot be signed.
-/

namespace PatchManager.Enrollment

open PatchManager.Conc

variable {sha256 : String → String} {cfg : RepoServerConfig} {caRootPem : String} {w w' : World}
  {l : List (Exchange Op Op.Resp)} {auth : AuthUser} {id : Uuid}

/-- What an approval that returns an error should have left. -/
structure AsBefore (sha256 : String → String) (cfg : RepoServerConfig) (caRootPem : String)
    (auth : AuthUser) (id : Uuid) (w w' : World) : Prop where
  hosts : w'.hosts = w.hosts
  certificates : w'.certificates = w.certificates
  requests : w'.requests = w.requests
  /-- where the approval could have succeeded, it can now -/
  again : ∀ l u, Serves (enrollment sha256 cfg caRootPem) w (approveEnrollment cfg caRootPem auth id) l
    (some (.ok 200)) u → ∃ l' u', Serves (enrollment sha256 cfg caRootPem) w'
      (approveEnrollment cfg caRootPem auth id) l' (some (.ok 200)) u'

def insertsHost : Exchange Op Op.Resp → Bool
  | ⟨.insertHost _, .ok ()⟩ => true
  | _ => false

theorem insertsHost_eq {o : Op} {r : o.Resp} (inserts : insertsHost ⟨o, r⟩ = true) :
    ∃ host, (⟨o, r⟩ : Exchange Op Op.Resp) = ⟨.insertHost host, .ok ()⟩ := by
  cases o with
  | insertHost host =>
    cases r with
    | ok _ => exact ⟨host, rfl⟩
    | error e => cases inserts
  | _ => cases inserts

/-- Hosts come by insertion, and none goes. -/
theorem hosts_of_execute {o : Op} {a : Answer} {r : o.Resp} (executed : execute sha256 w o a = some (r, w')) :
    w'.hosts.length = w.hosts.length + if insertsHost ⟨o, r⟩ then 1 else 0 := by
  cases o with
  | insertHost host =>
    cases a with
    | ok =>
      simp only [execute] at executed
      split at executed <;> cases executed <;> simp [insertsHost]
    | failed reason =>
      cases executed
      simp [insertsHost]
    | _ => cases executed
  | _ =>
    have other : insertsHost ⟨_, r⟩ = false := rfl
    simp only [other, Bool.false_eq_true, if_false, Nat.add_zero]
    cases a <;> simp only [execute] at executed <;> grind

/-- A program that has inserted a host leaves more of them. -/
theorem hosts_of_serves {α : Type} {p : Proc α} {result : Option α}
    (serves : Serves (enrollment sha256 cfg caRootPem) w p l result w') :
    w'.hosts.length = w.hosts.length + l.countP insertsHost := by
  induction serves with
  | ret => simp
  | cut => simp
  | op executed rest ih =>
    have one := @hosts_of_execute sha256 _ _ _ _ _ executed
    simp only [List.countP_cons]
    omega
  | spawn rest ih => exact ih

/-- The operations of an approval before it writes. -/
def Op.reads : Op → Bool
  | .listEnrollmentRequests | .findHost _ _ => true
  | _ => false

theorem execute_reads {o : Op} {a : Answer} {r : o.Resp} (reads : o.reads = true)
    (executed : execute sha256 w o a = some (r, w')) : w' = w := by
  cases o with
  | listEnrollmentRequests => cases a <;> cases executed <;> rfl
  | findHost fqdn ipAddress => cases a <;> cases executed <;> rfl
  | _ => cases reads

/-- A step that reads leaves everything as it was, whether it succeeds or not. -/
theorem unchanged_of_reading {α : Type} {failure : Failure} {p : Proc (Except String α)}
    {result : Option (Except Failure α)}
    (within : p.Within (fun o => o.reads = true) (fun _ => False) fun _ => False)
    (serves : Serves (enrollment sha256 cfg caRootPem) w (orFail failure p) l result w') : w' = w := by
  refine serves.within (I := fun u => u = w) (within.bind fun _ => .ret _) ?_ rfl
  intro u o a r u' reads executed same
  exact (execute_reads reads executed).trans same

/-- The insertion of a host that does not succeed changes nothing. -/
theorem unchanged_of_insertHost {host : Host} {result : Option (Except Failure Unit)}
    (serves : Serves (enrollment sha256 cfg caRootPem) w (orFail .database (perform (.insertHost host))) l
      result w') (none_ : ∀ x ∈ l, insertsHost x = false) : w' = w := by
  rcases serves.op_inv with ⟨-, rfl, -⟩ | ⟨a, r, w₁, rest, executed, later, rfl⟩
  · rfl
  · obtain ⟨-, rfl, -⟩ := later.ret_inv
    have failed := none_ _ List.mem_cons_self
    change execute sha256 w (.insertHost host) a = some (r, w') at executed
    cases a with
    | ok =>
      simp only [execute] at executed
      split at executed <;> cases executed
      · rfl
      · cases failed
    | failed reason =>
      cases executed
      rfl
    | _ => cases executed

/-- An approval that has inserted no host has changed nothing. -/
theorem generateBundle_unchanged {result : Option (Except Failure (Option (EnrollmentRequest × PkiBundle)))}
    (serves : Serves (enrollment sha256 cfg caRootPem) w (generateBundle cfg caRootPem auth id) l result w')
    (none_ : ∀ x ∈ l, insertsHost x = false) : w' = w := by
  unfold generateBundle at serves
  split at serves
  · exact serves.ret_inv.2.1
  have reading : ∀ o : Op, o.reads = true →
      (perform o).Within (fun o => o.reads = true) (fun _ => False) fun _ => False :=
    fun o reads => ⟨reads, fun _ => trivial⟩
  rcases serves.attempt_inv with ⟨l₁, requests, w₁, l₂, first, second, rfl⟩ | ⟨-, r, first⟩
  -- the requests are listed
  · obtain rfl := unchanged_of_reading (reading .listEnrollmentRequests rfl) first
    cases found : requests.find? (·.id == id) with
    | none =>
      simp only [found] at second
      exact second.ret_inv.2.1
    | some req =>
      simp only [found] at second
      rcases second.attempt_inv with ⟨l₃, existing, w₂, l₄, third, fourth, rfl⟩ | ⟨-, r, third⟩
      -- a host with the same name is looked for
      · obtain rfl := unchanged_of_reading (reading (.findHost req.fqdn req.ipAddress) rfl) third
        cases existing with
        | some host => exact fourth.ret_inv.2.1
        | none =>
          rcases fourth.attempt_inv with ⟨l₅, _, w₃, l₆, fifth, -, rfl⟩ | ⟨-, r, fifth⟩
          -- an insertion that succeeds is among the exchanges
          · rcases fifth.op_inv with ⟨-, -, eq⟩ | ⟨a, r, w₄, rest, executed, later, rfl⟩
            · cases eq
            · obtain ⟨rfl, rfl, eq | eq⟩ := later.ret_inv
              · cases eq
              · cases r with
                | error e => cases eq
                | ok _ =>
                  have failed := none_ ⟨.insertHost req.host, .ok ()⟩ (by simp)
                  cases failed
          · exact unchanged_of_insertHost fifth fun x mem => none_ x (by simp [mem])
      · exact unchanged_of_reading (reading (.findHost req.fqdn req.ipAddress) rfl) third
  · exact unchanged_of_reading (reading .listEnrollmentRequests rfl) first

/-- A failed approval leaves everything as it was exactly when it has not inserted the host. -/
theorem approval_atomic_iff {failure : Failure}
    (serves : Serves (enrollment sha256 cfg caRootPem) w (approveEnrollment cfg caRootPem auth id) l
      (some (.error failure)) w') :
    AsBefore sha256 cfg caRootPem auth id w w' ↔ ∀ host, ⟨.insertHost host, .ok ()⟩ ∉ l := by
  constructor
  · intro before host mem
    have count := hosts_of_serves serves
    rw [before.hosts] at count
    have one : 0 < l.countP insertsHost := List.countP_pos_iff.mpr ⟨_, mem, rfl⟩
    omega
  · intro none_
    have inserts : ∀ x ∈ l, insertsHost x = false := by
      intro x mem
      by_contra inserts
      obtain ⟨host, eq⟩ := insertsHost_eq (Bool.eq_true_of_not_eq_false inserts)
      exact none_ host (eq ▸ mem)
    rcases serves.attempt_inv with ⟨l₁, generated, w₁, l₂, first, second, rfl⟩ | ⟨-, r, first⟩
    · -- what is left of an approval does not fail
      rcases generated with _ | ⟨req, pki⟩
      · obtain ⟨-, -, eq | eq⟩ := second.ret_inv <;> cases eq
      · rcases second.op_inv with ⟨-, -, eq⟩ | ⟨a, now, w₂, rest, -, third, rfl⟩
        · cases eq
        · rcases third.op_inv with ⟨-, -, eq⟩ | ⟨a, u, w₃, rest, -, last, rfl⟩
          · cases eq
          · obtain ⟨-, -, eq | eq⟩ := last.ret_inv <;> cases eq
    · obtain rfl := generateBundle_unchanged first inserts
      exact ⟨rfl, rfl, rfl, fun l u again => ⟨l, u, again⟩⟩

namespace Small

def repoPaths : RepoServerConfig := ⟨"https://pm/repo", "gpg.pub", "rsa.pub"⟩

def pending : EnrollmentRequest where
  id := 1
  machineId := "machine"
  fqdn := "host"
  ipAddress := "10.0.0.1"
  osDetails := .null
  pollingToken := "hash"
  hostname := none
  createdAt := 0
  expiresAt := 0

def waiting : World := { requests := [pending], now := 0 }

def approver : AuthUser := { userId := 1, username := "ann", role := .admin }

/-- What an approval of the request exchanges when the insertion of the host is answered with `r`. -/
def inserting (r : Except String Unit) : List (Exchange Op Op.Resp) :=
  [⟨.listEnrollmentRequests, .ok [pending]⟩, ⟨.findHost "host" "10.0.0.1", .ok none⟩,
    ⟨.insertHost pending.host, r⟩]

end Small

/-- The database fails when the host is to be inserted. -/
theorem approval_atomic_iff_insert :
    AsBefore (fun token => token) Small.repoPaths "root" Small.approver 1 Small.waiting Small.waiting := by
  have serves : Serves (enrollment (fun token => token) Small.repoPaths "root") Small.waiting
      (approveEnrollment Small.repoPaths "root" Small.approver 1) (Small.inserting (.error "down"))
      (some (.error .database)) Small.waiting :=
    .op (a := Answer.ok) rfl (.op (a := Answer.ok) rfl (.op (a := Answer.failed "down") rfl .ret))
  exact (approval_atomic_iff serves).mpr fun host mem => by simp [Small.inserting] at mem

/-- The certificate cannot be signed: the host stays. -/
theorem certificate_failure : ¬ ∀ (sha256 : String → String) (cfg : RepoServerConfig) (caRootPem : String)
    (auth : AuthUser) (id : Uuid) (w w' : World) (l : List (Exchange Op Op.Resp)) (failure : Failure),
    Serves (enrollment sha256 cfg caRootPem) w (approveEnrollment cfg caRootPem auth id) l
      (some (.error failure)) w' → AsBefore sha256 cfg caRootPem auth id w w' := by
  intro all
  have serves : Serves (enrollment (fun token => token) Small.repoPaths "root") Small.waiting
      (approveEnrollment Small.repoPaths "root" Small.approver 1)
      (Small.inserting (.ok ()) ++ [⟨.signCert "host" [], .error "no key"⟩]) (some (.error .certificate))
      { Small.waiting with hosts := [Small.pending.host] } :=
    .op (a := Answer.ok) rfl (.op (a := Answer.ok) rfl (.op (a := Answer.ok) rfl
      (.op (a := Answer.failed "no key") rfl .ret)))
  have hosts := (all _ _ _ _ _ _ _ _ _ serves).hosts
  simp [Small.waiting] at hosts

end PatchManager.Enrollment
