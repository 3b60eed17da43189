import PatchManager.Web.Enrollment

/-! # Delivery of enrollments

An approval deletes the request first and stores the bundle for the agent last; a poll between the
two is told that there is nothing.  The answer leaves the repository configuration out.

Main results:

* `enrollment_delivered`: the law where no poll looks for a bundle in between, and no bundle that is
  delivered has a repository configuration.
* `repoConfigFor_eq_none_iff`: the hosts that there is no configuration for.
* `poll_during_approval`: a poll that comes too early.
-/

namespace PatchManager.Enrollment

open PatchManager.Conc

abbrev State := Sys World Op Op.Resp Fn
abbrev History := List (Event World Op Op.Resp Fn)

variable {sha256 : String → String} {cfg : RepoServerConfig} {caRootPem : String} {s t : State}
  {h : History} {tokenHash : String} {entry : ApprovedEntry} {row : EnrollmentRequest}

/-- The system has just been installed. -/
structure Initial (s : State) : Prop where
  tasks : s.tasks = []
  requests : s.world.requests = []
  approved : s.world.approved = ∅

/-! ## The law -/

def Created (h : History) (row : EnrollmentRequest) : Prop :=
  ∃ e ∈ h, ∃ tid payload tokenHash,
    e.label = .op tid (.createEnrollmentRequest payload tokenHash) (.ok row)

/-- The step is one of task `tid`, which runs `f`. -/
def By (e : Event World Op Op.Resp Fn) (tid : Nat) (f : Fn) : Prop :=
  ∃ task, e.pre.tasks[tid]? = some task ∧ task.root = f

def Denied (h : History) (id : Uuid) : Prop :=
  ∃ e ∈ h, ∃ tid auth n, e.label = .op tid (.deleteEnrollmentRequest id) (.ok n) ∧
    By e tid (.denyEnrollment auth id)

/-- A poll has taken a bundle that is valid. -/
def Taken (h : History) (tokenHash : String) : Prop :=
  ∃ e ∈ h, ∃ tid entry, e.label = .op tid (.removeApproved tokenHash) (some entry) ∧
    entry.isExpired e.pre.world.now = false

def BundleExpired (h : History) (tokenHash : String) (now : Time) : Prop :=
  ∃ e ∈ h, ∃ tid entry, e.label = .op tid (.insertApproved tokenHash entry) () ∧
    entry.isExpired now = true

/-- What ends an enrollment. -/
def Ended (h : History) (row : EnrollmentRequest) (now : Time) : Prop :=
  Taken h row.pollingToken ∨ Denied h row.id ∨ row.expiresAt < now ∨ BundleExpired h row.pollingToken now

/-- The last bundle stored under the hash is `entry`, by approval `a`. -/
def LastStored (h : History) (a : Nat) (tokenHash : String) (entry : ApprovedEntry) : Prop :=
  ∃ h₁ y h₂, h = h₁ ++ y :: h₂ ∧ y.label = .op a (.insertApproved tokenHash entry) () ∧
    ∀ z ∈ h₂, ∀ b other, z.label ≠ .op b (.insertApproved tokenHash other) ()

/-- Poll `tid` takes the bundle that approval `a` has stored. -/
def Delivers (h : History) (a tid : Nat) (tokenHash : String) (entry : ApprovedEntry) : Prop :=
  ∃ h₁ x h₂, h = h₁ ++ x :: h₂ ∧ x.label = .op tid (.removeApproved tokenHash) (some entry) ∧
    LastStored h₁ a tokenHash entry

/-- Poll `tid` of the token has been answered. -/
def Answered (sha256 : String → String) (h : History) (t : State) (tid : Nat) (token : String)
    (answer : EnrollmentStatusResponse) : Prop :=
  (∃ task, t.tasks[tid]? = some task ∧ task.root = .enrollStatus token) ∧
    (enrollStatus sha256 token).Returns (exchanges tid h) (.ok answer)

structure Delivery (sha256 : String → String) (h : History) (t : State) : Prop where
  /-- a poll of the token, begun after the request was created, is told that there is nothing only
      after the enrollment has ended -/
  found : ∀ h₀ e₀ h₁ e h₂ tid token o r row, h = h₀ ++ e₀ :: (h₁ ++ e :: h₂) →
    e₀.Starts tid (.enrollStatus token) → Created h₀ row → row.pollingToken = sha256 token →
    e.label = .op tid o r →
    (enrollStatus sha256 token).Returns (exchanges tid (h₀ ++ e₀ :: h₁) ++ [⟨o, r⟩]) (.ok .notFound) →
    Ended (h₀ ++ e₀ :: h₁) row e.pre.world.now
  once : ∀ a tid tid' tokenHash tokenHash' entry entry', Delivers h a tid tokenHash entry →
    Delivers h a tid' tokenHash' entry' → tid = tid'
  whole : ∀ tid token answer pki, Answered sha256 h t tid token answer → answer.bundle = some pki →
    ∃ a entry, Delivers h a tid (sha256 token) entry ∧ pki = entry.pki

/-! ## The condition -/

/-- When a poll looks for a bundle, every approval that has deleted a request with that token which
    has not expired has stored its bundle, and the process has not been restarted since. -/
def StoredInTime (h : History) : Prop :=
  ∀ x₁ x x₂ e h₂ a auth id n tid tokenHash r row, h = x₁ ++ x :: (x₂ ++ e :: h₂) →
    x.label = .op a (.deleteEnrollmentRequest id) (.ok n) → By x a (.approveEnrollment auth id) →
    row ∈ x.pre.world.requests → row.id = id → row.pollingToken = tokenHash →
    e.label = .op tid (.removeApproved tokenHash) r → e.pre.world.now ≤ row.expiresAt →
    ∃ y₁ y y₂ stored entry, x₂ = y₁ ++ y :: y₂ ∧ y.label = .op a (.insertApproved stored entry) () ∧
      ∀ z ∈ y₂, z.label ≠ .restart

/-- There is nothing to tell the host of a repository: its distribution is not recognised, or it is
    not Alpine and the key for GPG cannot be read or is empty. -/
def Unconfigured (cfg : RepoServerConfig) (req : EnrollmentRequest) (l : List (Exchange Op Op.Resp)) : Prop :=
  req.distroId = none ∨ (req.distroId ≠ some "alpine" ∧
    ∀ r : Except String String, ⟨.readToString cfg.gpgPublicKeyPath, r⟩ ∈ l → r.toOption.getD "" = "")

/-- Bundles are delivered only for hosts that there is no repository configuration for. -/
def NoConfiguration (cfg : RepoServerConfig) (h : History) : Prop :=
  ∀ h₁ y h₂ a auth id tid tokenHash entry reqs req, h = h₁ ++ y :: h₂ →
    y.label = .op a (.insertApproved tokenHash entry) () → By y a (.approveEnrollment auth id) →
    Delivers h a tid tokenHash entry → ⟨.listEnrollmentRequests, .ok reqs⟩ ∈ exchanges a h₁ →
    reqs.find? (·.id == id) = some req → Unconfigured cfg req (exchanges a h₁)

/-! ## Programs -/

section programs

variable {l : List (Exchange Op Op.Resp)}

/-- A poll is answered from the requests alone, or from what it takes out of the map. -/
theorem enrollStatus_returns {token : String} {answer : EnrollmentStatusResponse}
    (returns : (enrollStatus sha256 token).Returns l (.ok answer)) :
    ∃ reqs : List EnrollmentRequest,
      (∃ req now, l = [⟨.listEnrollmentRequests, .ok reqs⟩, ⟨.utcNow, now⟩] ∧
        reqs.find? (·.pollingToken == sha256 token) = some req ∧
        answer = if req.expiresAt < now then .notFound else .pending) ∨
      (reqs.find? (·.pollingToken == sha256 token) = none ∧
        ((∃ entry now, l = [⟨.listEnrollmentRequests, .ok reqs⟩,
            ⟨.removeApproved (sha256 token), some entry⟩, ⟨.utcNow, now⟩] ∧
          answer = if entry.isExpired now then .notFound else entry.response) ∨
        (l = [⟨.listEnrollmentRequests, .ok reqs⟩, ⟨.removeApproved (sha256 token), none⟩] ∧
          answer = .notFound))) := by
  obtain ⟨reqs, l₁, l₂, rfl, listed, rest⟩ := returns.attempt_inv
  obtain ⟨r, l₁, rfl, done⟩ := (orFail_returns listed).op_inv
  obtain ⟨rfl, rfl⟩ := done.ret_inv
  refine ⟨reqs, ?_⟩
  cases known : reqs.find? (·.pollingToken == sha256 token) with
  | some req =>
    simp only [known] at rest
    obtain ⟨now, l₂, rfl, last⟩ := rest.op_inv
    obtain ⟨rfl, eq⟩ := last.ret_inv
    exact .inl ⟨req, now, rfl, rfl, Except.ok.inj eq⟩
  | none =>
    simp only [known] at rest
    obtain ⟨removed, l₂, rfl, last⟩ := rest.op_inv
    refine .inr ⟨rfl, ?_⟩
    cases removed with
    | some entry =>
      obtain ⟨now, l₃, rfl, read⟩ := last.op_inv
      obtain ⟨rfl, eq⟩ := read.ret_inv
      exact .inl ⟨entry, now, rfl, Except.ok.inj eq⟩
    | none =>
      obtain ⟨rfl, eq⟩ := last.ret_inv
      exact .inr ⟨rfl, Except.ok.inj eq⟩

/-- There is a configuration exactly for the hosts that are not without one. -/
theorem repoConfigFor_eq_none_iff {req : EnrollmentRequest} {config : Option RepoConfig}
    (returns : (repoConfigFor cfg req).Returns l config) : config = none ↔ Unconfigured cfg req l := by
  unfold repoConfigFor at returns
  unfold Unconfigured
  cases detected : req.distroId with
  | none =>
    simp only [detected] at returns
    simp [returns.ret_inv.2]
  | some distroId =>
    simp only [detected] at returns
    obtain ⟨generated, some_⟩ := Option.isSome_iff_exists.mp
      (generateDistroConfig_of_detected detected cfg.urlBase
        ((req.os "codename").or (detectAptSuite (req.os "version"))))
    simp only [some_] at returns
    by_cases alpine : distroId = "alpine"
    · rw [if_pos alpine] at returns
      obtain ⟨key, l, rfl, last⟩ := returns.op_inv
      simp [last.ret_inv.2, alpine]
    · rw [if_neg alpine] at returns
      obtain ⟨key, l, rfl, last⟩ := returns.op_inv
      by_cases empty : (key.toOption.getD "").isEmpty = true
      · simp only [Prog.ret_bind, if_pos empty] at last
        obtain ⟨rfl, rfl⟩ := last.ret_inv
        simpa [alpine] using empty
      · simp only [Prog.ret_bind, if_neg empty] at last
        obtain ⟨rfl, rfl⟩ := last.ret_inv
        simpa [alpine] using empty

end programs

/-- What a request has exchanged before an operation that matters. -/
def shape (sha256 : String → String) (cfg : RepoServerConfig) (caRootPem : String) :
    Fn → List (Exchange Op Op.Resp) → Op → Prop
  | .enrollHost _, l, .createEnrollmentRequest _ tokenHash =>
    ∃ token, l = [⟨.generateToken, token⟩] ∧ tokenHash = sha256 token
  | .approveEnrollment auth id, l, .insertApproved tokenHash entry =>
    ∃ l' now req pki, l = l' ++ [⟨.utcNow, now⟩] ∧
      (generateBundle cfg caRootPem auth id).Returns l' (.ok (some (req, pki))) ∧
      tokenHash = req.pollingToken ∧ entry = .new pki now
  | .approveEnrollment _ id, _, .deleteEnrollmentRequest id' => id' = id
  | .denyEnrollment _ id, _, .deleteEnrollmentRequest id' => id' = id
  | _, _, .createEnrollmentRequest _ _ => False
  | _, _, .insertApproved _ _ => False
  | _, _, .deleteEnrollmentRequest _ => False
  | _, _, _ => True

/-- An operation that `shape` says nothing about. -/
def Op.plain : Op → Bool
  | .createEnrollmentRequest _ _ | .insertApproved _ _ | .deleteEnrollmentRequest _ => false
  | _ => true

theorem shape_of_plain {o : Op} (f : Fn) (l : List (Exchange Op Op.Resp)) (plain : o.plain = true) :
    shape sha256 cfg caRootPem f l o := by
  cases o <;> cases f <;> trivial

section within

variable {ops : Op → Prop} {fns tails : Fn → Prop}

theorem orFail_within {α : Type} {failure : Failure} {p : Proc (Except String α)}
    (within : p.Within ops fns tails) : (orFail failure p).Within ops fns tails :=
  within.bind fun _ => .ret _

end within

/-- The operations of an approval up to the bundle. -/
def approves (id : Uuid) (o : Op) : Prop := o = .deleteEnrollmentRequest id ∨ o.plain = true

theorem repoConfigFor_within (req : EnrollmentRequest) (id : Uuid) :
    (repoConfigFor cfg req).Within (approves id) (fun _ => False) fun _ => False := by
  unfold repoConfigFor
  cases req.distroId with
  | none => exact .ret _
  | some distroId =>
    dsimp only
    cases generateDistroConfig distroId cfg.urlBase ((req.os "codename").or (detectAptSuite (req.os "version"))) with
    | none => exact .ret _
    | some generated =>
      refine .ite ⟨.inr rfl, fun _ => .ret _⟩ ⟨.inr rfl, fun key => ?_⟩
      exact .ite (.ret _) (.ret _)

theorem generateBundle_within (auth : AuthUser) (id : Uuid) :
    (generateBundle cfg caRootPem auth id).Within (approves id) (fun _ => False) fun _ => False := by
  have issue : ∀ hostId commonName names, (issueCert hostId commonName names).Within (approves id)
      (fun _ => False) fun _ => False := fun hostId commonName names =>
    (orFail_within (p := perform (.signCert commonName names)) ⟨.inr rfl, fun _ => .ret _⟩).attempt
      fun signed => (orFail_within (p := perform (.insertCertificate _))
        ⟨.inr rfl, fun _ => .ret _⟩).attempt fun _ => .ret _
  refine .ite (.ret _) ((orFail_within (p := perform .listEnrollmentRequests)
    ⟨.inr rfl, fun _ => .ret _⟩).attempt fun requests => ?_)
  cases requests.find? (·.id == id) with
  | none => exact .ret _
  | some req =>
    refine (orFail_within (p := perform (.findHost _ _)) ⟨.inr rfl, fun _ => .ret _⟩).attempt
      fun existing => ?_
    cases existing with
    | some host => exact .ret _
    | none =>
      refine (orFail_within (p := perform (.insertHost _)) ⟨.inr rfl, fun _ => .ret _⟩).attempt
        fun _ => ?_
      refine ((issue _ _ _).attempt fun client => (issue _ _ _).attempt fun server => .ret _).attempt
        fun issued => ?_
      refine (orFail_within (p := perform (.deleteEnrollmentRequest id))
        ⟨.inl rfl, fun _ => .ret _⟩).attempt fun _ => ⟨.inr rfl, fun crl => ?_⟩
      exact (repoConfigFor_within req id).bind fun _ => .ret _

theorem body_shaped (f : Fn) :
    (body sha256 cfg caRootPem f).Along (shaped (shape sha256 cfg caRootPem)) (fun _ _ => True) (.init f) := by
  have plain : ∀ (σ : Traced Op Op.Resp Fn) (o : Op), o.plain = true →
      (shaped (shape sha256 cfg caRootPem)).guar σ o := fun σ o plain f _ => shape_of_plain f σ.done plain
  cases f with
  | enrollHost payload =>
    refine ⟨plain _ _ rfl, fun token _ => ⟨?_, fun created _ => ?_⟩⟩
    · intro f root
      obtain rfl := Option.some.inj root
      exact ⟨token, rfl, rfl⟩
    · cases created <;> trivial
  | enrollStatus token =>
    refine ⟨plain _ _ rfl, fun listed _ => ?_⟩
    cases listed with
    | error e => trivial
    | ok reqs =>
      dsimp only [Prog.ret_bind, Except.mapError]
      cases reqs.find? (·.pollingToken == sha256 token) with
      | some req => exact ⟨plain _ _ rfl, fun _ _ => trivial⟩
      | none =>
        refine ⟨plain _ _ rfl, fun removed _ => ?_⟩
        cases removed with
        | none => trivial
        | some entry => exact ⟨plain _ _ rfl, fun _ _ => trivial⟩
  | approveEnrollment auth id =>
    refine (Prog.along_bind _ _).mpr ((Prog.along_bind _ _).mpr ?_)
    refine ((generateBundle_within auth id).returned ?_).weaken ?_
    · intro f root l o permitted
      obtain rfl := Option.some.inj root
      rcases permitted with rfl | plain
      · exact rfl
      · exact shape_of_plain _ l plain
    · rintro σ r ⟨root, l, done, returns⟩
      rcases r with e | _ | ⟨req, pki⟩
      · trivial
      · trivial
      · refine ⟨plain _ _ rfl, fun now _ => ⟨?_, fun _ _ => trivial⟩⟩
        intro f root'
        obtain rfl := Option.some.inj (root.symm.trans root')
        exact ⟨l, now, req, pki, by simpa [Traced.next, shaped, tracing, Traced.init] using done, returns,
          rfl, rfl⟩
  | denyEnrollment auth id =>
    refine (Prog.along_bind _ _).mpr ?_
    unfold denyEnrollment
    split
    · trivial
    · refine ⟨?_, fun deleted _ => ?_⟩
      · intro f root
        obtain rfl := Option.some.inj root
        exact rfl
      · cases deleted <;> trivial

/-! ## Steps -/

/-- What one step does to the requests and to the bundles. -/
inductive Moves (sha256 : String → String) (w : World) : Label Op Op.Resp Fn → World → Prop
  | generate {tid : Nat} {token : String} (new : sha256 token ∉ w.tokens) :
      Moves sha256 w (.op tid .generateToken token) { w with tokens := sha256 token :: w.tokens }
  | create {tid : Nat} {payload : CreateEnrollmentRequest} {tokenHash ipAddress : String} {id : Uuid}
      (new : id ∉ w.ids) :
      Moves sha256 w (.op tid (.createEnrollmentRequest payload tokenHash)
          (.ok (payload.row tokenHash id ipAddress w.now)))
        { w with requests := payload.row tokenHash id ipAddress w.now :: w.requests, ids := id :: w.ids }
  | delete {tid : Nat} {id : Uuid} {n : Nat} : Moves sha256 w (.op tid (.deleteEnrollmentRequest id) (.ok n))
      { w with requests := w.requests.filter (·.id != id) }
  | store {tid : Nat} {tokenHash : String} {entry : ApprovedEntry} :
      Moves sha256 w (.op tid (.insertApproved tokenHash entry) ())
        { w with approved := w.approved.insert tokenHash entry }
  | remove {tid : Nat} {tokenHash : String} :
      Moves sha256 w (.op tid (.removeApproved tokenHash) (w.approved.lookup tokenHash))
        { w with approved := w.approved.erase tokenHash }
  | cleanup : Moves sha256 w .drift
      { w with requests := w.requests.filter fun req => !decide (req.expiresAt < w.now) }
  | purge {tokenHash : String} {entry : ApprovedEntry} (found : w.approved.lookup tokenHash = some entry)
      (expired : entry.isExpired w.now = true) :
      Moves sha256 w .drift { w with approved := w.approved.erase tokenHash }
  | tick {micros : Nat} : Moves sha256 w .drift { w with now := w.now + micros }
  | restart : Moves sha256 w .restart { w with approved := ∅ }
  /-- of hosts and certificates at most -/
  | other {l : Label Op Op.Resp Fn} {hosts : List Host} {certificates : List Certificate} :
      Moves sha256 w l { w with hosts, certificates }

section steps

variable {l : Label Op Op.Resp Fn} {tid : Nat}

theorem moves_of_execute {w w' : World} {o : Op} {r : o.Resp} {a : Answer}
    (done : execute sha256 w o a = some (r, w')) : Moves sha256 w (.op tid o r) w' := by
  cases o with
  | generateToken =>
    cases a with
    | token t =>
      simp only [execute, Option.ite_none_left_eq_some, Option.some.injEq, Prod.mk.injEq] at done
      obtain ⟨new, rfl, rfl⟩ := done
      exact .generate new
    | _ => cases done
  | createEnrollmentRequest payload tokenHash =>
    cases a with
    | row id ipAddress =>
      simp only [execute, Option.ite_none_left_eq_some] at done
      obtain ⟨new, done⟩ := done
      split at done
      · cases done
        exact .other
      · cases done
        exact .create new
    | failed reason =>
      cases done
      exact .other
    | _ => cases done
  | insertHost host =>
    cases a with
    | ok =>
      simp only [execute] at done
      split at done <;> cases done <;> exact .other
    | failed reason =>
      cases done
      exact .other
    | _ => cases done
  | insertCertificate cert =>
    cases a with
    | ok =>
      simp only [execute] at done
      split at done <;> cases done <;> exact .other
    | failed reason =>
      cases done
      exact .other
    | _ => cases done
  | deleteEnrollmentRequest id =>
    cases a with
    | ok =>
      cases done
      exact .delete
    | failed reason =>
      cases done
      exact .other
    | _ => cases done
  | insertApproved tokenHash entry =>
    cases a with
    | ok =>
      cases done
      exact .store
    | _ => cases done
  | removeApproved tokenHash =>
    cases a with
    | ok =>
      cases done
      exact .remove
    | _ => cases done
  | _ =>
    -- the operations that read
    cases a <;> cases done <;> exact .other

theorem moves_of_step (step : Step (enrollment sha256 cfg caRootPem).machine s l t) :
    Moves sha256 s.world l t.world := by
  rcases Service.world_cases step with ⟨tid, o, r, a, rfl, done⟩ | ⟨d, rfl, moved⟩ | ⟨rfl, moved⟩ |
      ⟨-, same⟩
  · exact moves_of_execute done
  · change t.world = change s.world d at moved
    rw [moved]
    cases d with
    | tick micros => exact .tick
    | cleanup => exact .cleanup
    | purge tokenHash =>
      simp only [change]
      split
      case isTrue expired =>
        obtain ⟨entry, found, expired⟩ := (Option.any_eq_true _ _).mp expired
        exact .purge found expired
      case isFalse => exact .other
    | other hosts certificates => exact .other
  · rw [moved]
    exact .restart
  · rw [same]
    exact .other

/-- A request in the table was there before or is created by this step. -/
theorem requests_cases (step : Step (enrollment sha256 cfg caRootPem).machine s l t)
    (mem : row ∈ t.world.requests) : row ∈ s.world.requests ∨
      ∃ tid payload tokenHash, l = .op tid (.createEnrollmentRequest payload tokenHash) (.ok row) := by
  have moves := moves_of_step step
  generalize t.world = w at moves mem
  cases moves with
  | create =>
    rcases List.mem_cons.mp mem with rfl | old
    · exact .inr ⟨_, _, _, rfl⟩
    · exact .inl old
  | delete => exact .inl (List.mem_of_mem_filter mem)
  | cleanup => exact .inl (List.mem_of_mem_filter mem)
  | _ => exact .inl mem

/-- A request goes when it is deleted, or has expired. -/
theorem lost_cases (step : Step (enrollment sha256 cfg caRootPem).machine s l t)
    (mem : row ∈ s.world.requests) (gone : row ∉ t.world.requests) :
    (∃ tid n, l = .op tid (.deleteEnrollmentRequest row.id) (.ok n)) ∨ row.expiresAt < s.world.now := by
  have moves := moves_of_step step
  generalize t.world = w at moves gone
  cases moves with
  | create => exact absurd (List.mem_cons_of_mem _ mem) gone
  | @delete tid id n =>
    by_cases same : row.id = id
    · exact .inl ⟨tid, n, by rw [same]⟩
    · exact absurd (List.mem_filter.mpr ⟨mem, by simpa using same⟩) gone
  | cleanup =>
    by_cases expired : row.expiresAt < s.world.now
    · exact .inr expired
    · exact absurd (List.mem_filter.mpr ⟨mem, by simpa using expired⟩) gone
  | _ => exact absurd mem gone

/-- A bundle in the map was there before or is stored by this step. -/
theorem stored_cases (step : Step (enrollment sha256 cfg caRootPem).machine s l t)
    (found : t.world.approved.lookup tokenHash = some entry) :
    s.world.approved.lookup tokenHash = some entry ∨
      ∃ tid, l = .op tid (.insertApproved tokenHash entry) () := by
  have erased : ∀ other, (s.world.approved.erase other).lookup tokenHash = some entry →
      s.world.approved.lookup tokenHash = some entry := by
    intro other found
    by_cases same : tokenHash = other
    · rw [same, AList.lookup_erase] at found
      cases found
    · rwa [AList.lookup_erase_ne same] at found
  have moves := moves_of_step step
  generalize t.world = w at moves found
  cases moves with
  | @store tid other =>
    by_cases same : tokenHash = other
    · subst same
      rw [AList.lookup_insert] at found
      obtain rfl := Option.some.inj found
      exact .inr ⟨tid, rfl⟩
    · rw [AList.lookup_insert_ne same] at found
      exact .inl found
  | remove => exact .inl (erased _ found)
  | purge => exact .inl (erased _ found)
  | restart => cases found
  | _ => exact .inl found

/-- A bundle goes when a poll takes it, when it has expired, or when the process ends. -/
theorem gone_cases (step : Step (enrollment sha256 cfg caRootPem).machine s l t)
    (found : s.world.approved.lookup tokenHash = some entry)
    (gone : t.world.approved.lookup tokenHash = none) :
    (∃ tid, l = .op tid (.removeApproved tokenHash) (some entry)) ∨
      entry.isExpired s.world.now = true ∨ l = .restart := by
  have kept : ∀ other, tokenHash ≠ other → (s.world.approved.erase other).lookup tokenHash ≠ none := by
    intro other ne
    rw [AList.lookup_erase_ne ne, found]
    simp
  have moves := moves_of_step step
  generalize t.world = w at moves gone
  cases moves with
  | @store tid other =>
    by_cases same : tokenHash = other
    · subst same
      rw [AList.lookup_insert] at gone
      cases gone
    · rw [AList.lookup_insert_ne same, found] at gone
      cases gone
  | @remove tid other =>
    by_cases same : tokenHash = other
    · subst same
      exact .inl ⟨tid, by rw [found]⟩
    · exact absurd gone (kept other same)
  | @purge other entry' there expired =>
    by_cases same : tokenHash = other
    · subst same
      obtain rfl := Option.some.inj (found.symm.trans there)
      exact .inr (.inl expired)
    · exact absurd gone (kept other same)
  | restart => exact .inr (.inr rfl)
  | _ =>
    rw [found] at gone
    cases gone

theorem clock_grows (step : Step (enrollment sha256 cfg caRootPem).machine s l t) :
    s.world.now ≤ t.world.now := by
  have moves := moves_of_step step
  generalize t.world = w at moves
  cases moves with
  | tick => simp
  | _ => exact Int.le_refl _

theorem ids_grow {id : Uuid} (step : Step (enrollment sha256 cfg caRootPem).machine s l t)
    (taken : id ∈ s.world.ids) : id ∈ t.world.ids := by
  have moves := moves_of_step step
  generalize t.world = w at moves
  cases moves with
  | create => exact List.mem_cons_of_mem _ taken
  | _ => exact taken

theorem tokens_grow (step : Step (enrollment sha256 cfg caRootPem).machine s l t)
    (taken : tokenHash ∈ s.world.tokens) : tokenHash ∈ t.world.tokens := by
  have moves := moves_of_step step
  generalize t.world = w at moves
  cases moves with
  | generate => exact List.mem_cons_of_mem _ taken
  | _ => exact taken

/-- A poll takes what is there, and leaves nothing. -/
theorem removed {r : Option ApprovedEntry}
    (step : Step (enrollment sha256 cfg caRootPem).machine s (.op tid (.removeApproved tokenHash) r) t) :
    s.world.approved.lookup tokenHash = r ∧ t.world.approved.lookup tokenHash = none := by
  obtain ⟨_, _, _, _, ⟨a, done⟩, rfl⟩ := step.op_inv
  cases a with
  | ok =>
    cases done
    exact ⟨rfl, AList.lookup_erase ..⟩
  | _ => cases done

theorem stored (step : Step (enrollment sha256 cfg caRootPem).machine s
    (.op tid (.insertApproved tokenHash entry) ()) t) : t.world.approved.lookup tokenHash = some entry := by
  obtain ⟨_, _, _, _, ⟨a, done⟩, rfl⟩ := step.op_inv
  cases a with
  | ok =>
    cases done
    exact AList.lookup_insert ..
  | _ => cases done

theorem listed {reqs : List EnrollmentRequest}
    (step : Step (enrollment sha256 cfg caRootPem).machine s (.op tid .listEnrollmentRequests (.ok reqs)) t) :
    reqs = s.world.requests := by
  obtain ⟨_, _, _, _, ⟨a, done⟩, rfl⟩ := step.op_inv
  cases a with
  | ok =>
    cases done
    rfl
  | _ => cases done

theorem clock_read {now : Time}
    (step : Step (enrollment sha256 cfg caRootPem).machine s (.op tid .utcNow now) t) :
    now = s.world.now := by
  obtain ⟨_, _, _, _, ⟨a, done⟩, rfl⟩ := step.op_inv
  cases a with
  | ok =>
    cases done
    rfl
  | _ => cases done

/-- A new request has a new identifier, and is in the table. -/
theorem created {payload : CreateEnrollmentRequest}
    (step : Step (enrollment sha256 cfg caRootPem).machine s
      (.op tid (.createEnrollmentRequest payload tokenHash) (.ok row)) t) :
    row.id ∉ s.world.ids ∧ row.id ∈ t.world.ids ∧ row ∈ t.world.requests ∧ row.pollingToken = tokenHash := by
  obtain ⟨_, _, _, _, ⟨a, done⟩, rfl⟩ := step.op_inv
  cases a with
  | row id ipAddress =>
    change execute sha256 s.world (.createEnrollmentRequest payload tokenHash) (.row id ipAddress) =
      some (.ok row, _) at done
    simp only [execute, Option.ite_none_left_eq_some] at done
    obtain ⟨new, done⟩ := done
    split at done
    · cases done
    · cases done
      exact ⟨new, List.mem_cons_self, List.mem_cons_self, rfl⟩
  | _ => cases done

end steps

/-! ## Runs -/

/-- The hash of the token an operation has been given. -/
def Op.given (sha256 : String → String) : (o : Op) → o.Resp → Option String
  | .generateToken, token => some (sha256 token)
  | _, _ => none

/-- The hash an operation files a request under. -/
def Op.files : Op → Option String
  | .createEnrollmentRequest _ tokenHash => some tokenHash
  | _ => none

theorem given_fresh {w w' : World} {o : Op} {r : o.Resp}
    (done : (enrollment sha256 cfg caRootPem).machine.exec w o r w') (given : o.given sha256 r = some tokenHash) :
    tokenHash ∉ w.tokens ∧ tokenHash ∈ w'.tokens := by
  obtain ⟨a, done⟩ := done
  cases o with
  | generateToken =>
    cases a with
    | token t =>
      change execute sha256 w .generateToken (.token t) = some (r, w') at done
      simp only [execute, Option.ite_none_left_eq_some, Option.some.injEq, Prod.mk.injEq] at done
      obtain ⟨new, rfl, rfl⟩ := done
      obtain rfl := Option.some.inj given
      exact ⟨new, List.mem_cons_self⟩
    | _ => cases done
  | _ => cases given

section runs

variable (run : Run (enrollment sha256 cfg caRootPem).machine s h t) (initial : Initial s)

include run in
theorem clock_run : s.world.now ≤ t.world.now :=
  run.preserves (I := fun u => s.world.now ≤ u.world.now)
    (fun _ _ step before => Int.le_trans before (clock_grows step)) (Int.le_refl _)

include run in
/-- A task runs one function. -/
theorem by_unique {h₁ h₂ h₃ : History} {e e' : Event World Op Op.Resp Fn} {tid : Nat} {f f' : Fn}
    (split : h = h₁ ++ e :: (h₂ ++ e' :: h₃)) (first : By e tid f) (second : By e' tid f') : f = f' := by
  subst split
  obtain ⟨-, step, rest⟩ := run.split_event
  obtain ⟨between, -⟩ := rest.split_event
  obtain ⟨task, at_, rfl⟩ := first
  obtain ⟨task', at_', rfl⟩ := second
  obtain ⟨t₁, there, root, -⟩ := (between.cons step).task_kept at_
  rw [Option.some.inj (at_'.symm.trans there), root]

include run in
/-- A bundle is taken once: for the next to be found another has to be stored. -/
theorem stored_between {h₁ h₂ h₃ : History} {x x' : Event World Op Op.Resp Fn} {tid tid' : Nat}
    {r : Option ApprovedEntry} (split : h = h₁ ++ x :: (h₂ ++ x' :: h₃))
    (takes : x.label = .op tid (.removeApproved tokenHash) r)
    (takes' : x'.label = .op tid' (.removeApproved tokenHash) (some entry)) :
    ∃ z ∈ h₂, ∃ b, z.label = .op b (.insertApproved tokenHash entry) () := by
  subst split
  obtain ⟨-, step, rest⟩ := run.split_event
  obtain ⟨between, step', -⟩ := rest.split_event
  rw [takes] at step
  rw [takes'] at step'
  obtain ⟨l₁, z, l₂, rfl, absent, found⟩ := between.exists_change
    (P := fun s => s.world.approved.lookup tokenHash = some entry) (by simp [(removed step).2])
    (removed step').1
  rcases stored_cases between.split_event.2.1 found with old | ⟨b, stores⟩
  · exact absurd old absent
  · exact ⟨z, by simp, b, stores⟩

include run initial

/-- A hash is used for one request. -/
theorem file_once {h₁ h₂ h₃ : History} {e e' : Event World Op Op.Resp Fn} {tid tid' : Nat}
    {payload payload' : CreateEnrollmentRequest} {r r' : Except String EnrollmentRequest}
    (split : h = h₁ ++ e :: (h₂ ++ e' :: h₃))
    (label : e.label = .op tid (.createEnrollmentRequest payload tokenHash) r)
    (label' : e'.label = .op tid' (.createEnrollmentRequest payload' tokenHash) r') : False := by
  refine run.uses_once (Op.given sha256) Op.files (fun w tokenHash => tokenHash ∈ w.tokens)
    (fun _ _ _ _ _ done given => given_fresh done given) (fun _ _ _ _ step taken => tokens_grow step taken)
    ?_ split label label' rfl rfl
  intro h₁ e h₂ tid o r tokenHash eq label files
  subst eq
  obtain ⟨task, -, shape_of⟩ := run.shaped initial.tasks body_shaped label
  cases o with
  | createEnrollmentRequest payload tokenHash' =>
    obtain rfl := Option.some.inj files
    generalize task.root = f at shape_of
    cases f with
    | enrollHost payload =>
      obtain ⟨token, eq, hash⟩ := shape_of
      simp [eq, Op.given, Op.files, hash]
    | _ => cases shape_of
  | _ => cases files

/-- A request in the table has been created. -/
theorem created_of_mem (mem : row ∈ t.world.requests) : Created h row := by
  have absent : row ∉ s.world.requests := by simp [initial.requests]
  obtain ⟨h₁, e, h₂, rfl, before, after⟩ :=
    run.exists_change (P := fun s => row ∈ s.world.requests) absent mem
  rcases requests_cases run.split_event.2.1 after with old | ⟨tid, payload, tokenHash, label⟩
  · exact absurd old before
  · exact ⟨e, by simp, tid, payload, tokenHash, label⟩

/-- A request is told by its identifier, and by its token. -/
theorem created_unique {row' : EnrollmentRequest} (first : Created h row) (second : Created h row')
    (same : row.id = row'.id ∨ row.pollingToken = row'.pollingToken) : row = row' := by
  -- no request is created with the identifier or the token of an earlier one
  have once : ∀ {h₁ e h₂ e' h₃ tid tid' payload payload' tokenHash tokenHash'} {row row' : EnrollmentRequest},
      h = h₁ ++ e :: (h₂ ++ e' :: h₃) →
      e.label = .op tid (.createEnrollmentRequest payload tokenHash) (.ok row) →
      e'.label = .op tid' (.createEnrollmentRequest payload' tokenHash') (.ok row') →
      ¬ (row.id = row'.id ∨ row.pollingToken = row'.pollingToken) := by
    intro h₁ e h₂ e' h₃ tid tid' payload payload' tokenHash tokenHash' row row' split label label' same
    have run' := split ▸ run
    obtain ⟨-, step, rest⟩ := run'.split_event
    obtain ⟨between, step', -⟩ := rest.split_event
    rw [label] at step
    rw [label'] at step'
    obtain ⟨-, there, -, hash⟩ := created step
    obtain ⟨new, -, -, hash'⟩ := created step'
    rcases same with id | token
    · exact new (id ▸ between.preserves (I := fun s => row.id ∈ s.world.ids)
        (fun _ _ step taken => ids_grow step taken) there)
    · obtain rfl : tokenHash = tokenHash' := hash.symm.trans (token.trans hash')
      exact file_once run initial split label label'
  obtain ⟨e, mem, tid, payload, tokenHash, label⟩ := first
  obtain ⟨e', mem', tid', payload', tokenHash', label'⟩ := second
  obtain ⟨h₁, h₂, eq⟩ := List.append_of_mem mem
  obtain ⟨h₁', h₂', eq'⟩ := List.append_of_mem mem'
  rcases split_cases (eq.symm.trans eq') with ⟨-, rfl, -⟩ | ⟨m, later, -⟩ | ⟨m, later, -⟩
  · rw [label] at label'
    cases label'
    rfl
  · exact absurd same (once (by rw [eq, later]) label label')
  · exact absurd (same.imp Eq.symm Eq.symm) (once (by rw [eq', later]) label' label)

/-- A bundle in the map has been stored, by the last to store one under the hash. -/
theorem lastStored_of_lookup (found : t.world.approved.lookup tokenHash = some entry) :
    ∃ a, LastStored h a tokenHash entry := by
  refine run.preserves_history (I := fun h s => ∀ entry, s.world.approved.lookup tokenHash = some entry →
    ∃ a, LastStored h a tokenHash entry) ?_ ?_ entry found
  · intro entry found
    rw [initial.approved] at found
    cases found
  · intro h₁ e _ step before entry found
    by_cases stores : ∃ b other, e.label = .op b (.insertApproved tokenHash other) ()
    · obtain ⟨b, other, label⟩ := stores
      rw [label] at step
      obtain rfl := Option.some.inj ((Enrollment.stored step).symm.trans found)
      exact ⟨b, h₁, e, [], rfl, label, by simp⟩
    · rcases stored_cases step found with old | ⟨b, label⟩
      · obtain ⟨a, l₁, y, l₂, rfl, label, last⟩ := before entry old
        refine ⟨a, l₁, y, l₂ ++ [e], by simp, label, fun z mem b other => ?_⟩
        rcases List.mem_append.mp mem with old | new
        · exact last z old b other
        · obtain rfl := List.mem_singleton.mp new
          exact fun label => stores ⟨b, other, label⟩
      · exact absurd ⟨b, entry, label⟩ stores

/-- Requests are deleted by those that approve or deny them. -/
theorem deleted_by {h₁ h₂ : History} {e : Event World Op Op.Resp Fn} {a : Nat} {id : Uuid}
    {r : Except String Nat} (split : h = h₁ ++ e :: h₂)
    (label : e.label = .op a (.deleteEnrollmentRequest id) r) :
    (∃ auth, By e a (.approveEnrollment auth id)) ∨ ∃ auth, By e a (.denyEnrollment auth id) := by
  subst split
  obtain ⟨⟨root, prog⟩, at_, shape_of⟩ := run.shaped initial.tasks body_shaped label
  cases root with
  | approveEnrollment auth id' =>
    obtain rfl : id = id' := shape_of
    exact .inl ⟨auth, _, at_, rfl⟩
  | denyEnrollment auth id' =>
    obtain rfl : id = id' := shape_of
    exact .inr ⟨auth, _, at_, rfl⟩
  | _ => cases shape_of

/-- What an approval has exchanged when it stores a bundle. -/
theorem stored_by {h₁ h₂ : History} {e : Event World Op Op.Resp Fn} {a : Nat} (split : h = h₁ ++ e :: h₂)
    (label : e.label = .op a (.insertApproved tokenHash entry) ()) :
    ∃ auth id l now req pki, By e a (.approveEnrollment auth id) ∧
      exchanges a h₁ = l ++ [⟨.utcNow, now⟩] ∧
      (generateBundle cfg caRootPem auth id).Returns l (.ok (some (req, pki))) ∧
      tokenHash = req.pollingToken ∧ entry = .new pki now := by
  subst split
  obtain ⟨⟨root, prog⟩, at_, shape_of⟩ := run.shaped initial.tasks body_shaped label
  cases root with
  | approveEnrollment auth id =>
    obtain ⟨l, now, req, pki, eq, returns, hash, new⟩ := shape_of
    exact ⟨auth, id, l, now, req, pki, ⟨_, at_, rfl⟩, eq, returns, hash, new⟩
  | _ => cases shape_of

/-- An approval stores one bundle. -/
theorem store_once {h₁ h₂ h₃ : History} {e e' : Event World Op Op.Resp Fn} {a : Nat}
    {tokenHash' : String} {entry' : ApprovedEntry} (split : h = h₁ ++ e :: (h₂ ++ e' :: h₃))
    (label : e.label = .op a (.insertApproved tokenHash entry) ()) :
    e'.label ≠ .op a (.insertApproved tokenHash' entry') () := by
  intro label'
  have whole : h = (h₁ ++ e :: h₂) ++ e' :: h₃ := by simp [split]
  obtain ⟨auth, id, l, now, req, pki, -, eq, returns, -⟩ := stored_by run initial whole label'
  have mem := mem_exchanges (h := h₁ ++ e :: h₂) (by simp) label
  rw [eq, List.mem_append] at mem
  rcases mem with mem | mem
  · rcases (generateBundle_within auth id).mem_returned returns _ mem with other | plain
    · cases other
    · cases plain
  · simp at mem

/-- The bundle of an approval is for its request, which has been created. -/
theorem request_of_stored {h₁ h₂ : History} {e : Event World Op Op.Resp Fn} {a : Nat} {auth : AuthUser}
    {id : Uuid} (split : h = h₁ ++ e :: h₂) (label : e.label = .op a (.insertApproved tokenHash entry) ())
    (by_ : By e a (.approveEnrollment auth id)) :
    ∃ req, Created h req ∧ req.id = id ∧ req.pollingToken = tokenHash := by
  obtain ⟨auth', id', l, now, req, pki, ⟨task, at_, root⟩, eq, returns, hash, -⟩ :=
    stored_by run initial split label
  obtain ⟨task', at_', root'⟩ := by_
  obtain rfl := Option.some.inj (at_.symm.trans at_')
  cases root.symm.trans root'
  obtain ⟨reqs, before, reads, rfl, found, -⟩ := generateBundle_returns returns
  obtain ⟨l₁, x, l₂, rfl, listing⟩ :=
    exists_event_of_mem (show (⟨.listEnrollmentRequests, .ok reqs⟩ : Exchange Op Op.Resp) ∈ exchanges a h₁ by simp [eq])
  subst split
  rw [List.append_assoc] at run
  obtain ⟨before, step, -⟩ := run.split_event
  rw [listing] at step
  obtain rfl := listed step
  obtain ⟨y, mem, created⟩ := created_of_mem before initial (List.mem_of_find?_eq_some found)
  exact ⟨req, ⟨y, by simp [mem], created⟩, by simpa using List.find?_some found, hash.symm⟩

/-- A bundle that was stored, and that a poll does not find, has been taken or has expired. -/
theorem ended_of_stored {h₁ h₂ h₃ : History} {y e : Event World Op Op.Resp Fn} {a tid : Nat}
    (split : h = h₁ ++ y :: (h₂ ++ e :: h₃)) (label : y.label = .op a (.insertApproved tokenHash entry) ())
    (running : ∀ z ∈ h₂, z.label ≠ .restart) (label' : e.label = .op tid (.removeApproved tokenHash) none) :
    Taken (h₁ ++ y :: h₂) tokenHash ∨ BundleExpired (h₁ ++ y :: h₂) tokenHash e.pre.world.now := by
  subst split
  obtain ⟨first, step, rest⟩ := run.split_event
  obtain ⟨between, step', -⟩ := rest.split_event
  have first' := first
  rw [label] at step
  rw [label'] at step'
  have there := Enrollment.stored step
  obtain ⟨l₁, z, l₂, rfl, present, gone⟩ := between.exists_change
    (P := fun s => s.world.approved.lookup tokenHash = none) (by simp [there]) (removed step').1
  obtain ⟨entry', found⟩ := Option.ne_none_iff_exists'.mp present
  obtain ⟨before, stepz, after⟩ := between.split_event
  -- what is gone had been stored, and the clock has gone on
  have expired : entry'.isExpired z.pre.world.now = true →
      BundleExpired (h₁ ++ y :: (l₁ ++ z :: l₂)) tokenHash e.pre.world.now := by
    intro expired
    have whole : Run (enrollment sha256 cfg caRootPem).machine s (h₁ ++ y :: l₁) z.pre := by
      refine first.append (before.cons ?_)
      rwa [← label] at step
    obtain ⟨b, k₁, x, k₂, eq, stores, -⟩ := lastStored_of_lookup whole initial found
    refine ⟨x, ?_, b, entry', stores, ?_⟩
    · have mem : x ∈ h₁ ++ y :: l₁ := by simp [eq]
      rcases List.mem_append.mp mem with old | new
      · exact List.mem_append_left _ old
      · rcases List.mem_cons.mp new with rfl | later
        · simp
        · simp [later]
    · have later := Int.le_trans (clock_grows stepz) (clock_run after)
      simp only [ApprovedEntry.isExpired, decide_eq_true_eq] at expired ⊢
      exact Int.lt_of_lt_of_le expired later
  rcases gone_cases stepz found gone with ⟨b, take⟩ | late | ends
  · cases valid : entry'.isExpired z.pre.world.now with
    | false => exact .inl ⟨z, by simp, b, entry', take, valid⟩
    | true => exact .inr (expired valid)
  · exact .inr (expired late)
  · exact absurd ends (running z (by simp))

/-- A request that a poll does not list has been denied, has expired, or has been deleted by an
    approval. -/
theorem lost_of_unlisted {h₁ h₂ h₃ : History} {c x : Event World Op Op.Resp Fn} {tid tid' : Nat}
    {payload : CreateEnrollmentRequest} {reqs : List EnrollmentRequest}
    (split : h = h₁ ++ c :: (h₂ ++ x :: h₃))
    (creates : c.label = .op tid (.createEnrollmentRequest payload tokenHash) (.ok row))
    (lists : x.label = .op tid' .listEnrollmentRequests (.ok reqs)) (unlisted : row ∉ reqs) :
    Denied (h₁ ++ c :: h₂) row.id ∨ row.expiresAt < x.pre.world.now ∨
      ∃ l₁ d l₂ a auth n, h₂ = l₁ ++ d :: l₂ ∧ d.label = .op a (.deleteEnrollmentRequest row.id) (.ok n) ∧
        By d a (.approveEnrollment auth row.id) ∧ row ∈ d.pre.world.requests := by
  subst split
  have whole := run
  obtain ⟨-, step, rest⟩ := run.split_event
  obtain ⟨between, step', -⟩ := rest.split_event
  rw [creates] at step
  rw [lists] at step'
  obtain ⟨-, -, there, -⟩ := created step
  obtain rfl := listed step'
  obtain ⟨l₁, d, l₂, rfl, present, gone⟩ := between.exists_change
    (P := fun s => row ∉ s.world.requests) (by simpa using there) unlisted
  obtain ⟨-, stepd, after⟩ := between.split_event
  have present := not_not.mp present
  rcases lost_cases stepd present gone with ⟨a, n, deletes⟩ | expired
  · have at_ : h₁ ++ c :: (l₁ ++ d :: l₂ ++ x :: h₃) = (h₁ ++ c :: l₁) ++ d :: (l₂ ++ x :: h₃) := by simp
    rcases deleted_by whole initial at_ deletes with ⟨auth, by_⟩ | ⟨auth, by_⟩
    · exact .inr (.inr ⟨l₁, d, l₂, a, auth, n, rfl, deletes, by_, present⟩)
    · exact .inl ⟨d, by simp, a, auth, n, deletes, by_⟩
  · exact .inr (.inl (Int.lt_of_lt_of_le expired (Int.le_trans (clock_grows stepd) (clock_run after))))

/-- A request deleted by an approval that has stored its bundle is over where a poll does not find
    the bundle. -/
theorem ended_of_deleted (inTime : StoredInTime h) {h₁ h₂ h₃ : History} {d e : Event World Op Op.Resp Fn}
    {a tid n : Nat} {auth : AuthUser} (split : h = h₁ ++ d :: (h₂ ++ e :: h₃))
    (deletes : d.label = .op a (.deleteEnrollmentRequest row.id) (.ok n))
    (by_ : By d a (.approveEnrollment auth row.id)) (present : row ∈ d.pre.world.requests)
    (known : Created h row) (label : e.label = .op tid (.removeApproved row.pollingToken) none) :
    Ended (h₁ ++ d :: h₂) row e.pre.world.now := by
  by_cases expired : row.expiresAt < e.pre.world.now
  · exact .inr (.inr (.inl expired))
  obtain ⟨y₁, y, y₂, tokenHash, entry, rfl, stores, running⟩ := inTime h₁ d h₂ e h₃ a auth row.id n tid
    row.pollingToken none row split deletes by_ present rfl rfl label (Int.not_lt.mp expired)
  have at_y : h = (h₁ ++ d :: y₁) ++ y :: (y₂ ++ e :: h₃) := by simp [split]
  -- the bundle is the one of this request
  obtain ⟨auth', id, l, now, req, pki, by_y, -⟩ := stored_by run initial at_y stores
  cases by_unique run (show h = h₁ ++ d :: (y₁ ++ y :: (y₂ ++ e :: h₃)) by simp [split]) by_ by_y
  obtain ⟨req', created, id, hash⟩ := request_of_stored run initial at_y stores by_y
  obtain rfl := created_unique run initial created known (.inl id)
  subst hash
  have whole : h₁ ++ d :: (y₁ ++ y :: y₂) = (h₁ ++ d :: y₁) ++ y :: y₂ := by simp
  rw [whole]
  exact (ended_of_stored run initial at_y stores running label).imp_right fun late => .inr (.inr late)

/-- Where bundles are stored in time, a poll is told that there is nothing only when there is not. -/
theorem found_of_inTime (inTime : StoredInTime h) {h₀ h₁ h₂ : History}
    {e₀ e : Event World Op Op.Resp Fn} {tid : Nat} {token : String} {o : Op} {r : o.Resp}
    (split : h = h₀ ++ e₀ :: (h₁ ++ e :: h₂)) (starts : e₀.Starts tid (.enrollStatus token))
    (known : Created h₀ row) (right : row.pollingToken = sha256 token) (label : e.label = .op tid o r)
    (returns : (enrollStatus sha256 token).Returns (exchanges tid (h₀ ++ e₀ :: h₁) ++ [⟨o, r⟩])
      (.ok .notFound)) : Ended (h₀ ++ e₀ :: h₁) row e.pre.world.now := by
  have known' : Created h row := by
    obtain ⟨c, mem, creates⟩ := known
    exact ⟨c, by simp [split, mem], creates⟩
  have at_e : h = (h₀ ++ e₀ :: h₁) ++ e :: h₂ := by simp [split]
  have stepe : Step (enrollment sha256 cfg caRootPem).machine e.pre e.label e.post :=
    run.step_of_mem (by simp [split])
  rw [label] at stepe
  obtain ⟨reqs, ⟨req, now, eq, found, answer⟩ | ⟨absent, ⟨entry, now, eq, answer⟩ | ⟨eq, -⟩⟩⟩ :=
    enrollStatus_returns returns
  · -- the request is there, and has expired
    obtain ⟨first, last⟩ := List.append_inj'
      (show _ = ([⟨.listEnrollmentRequests, .ok reqs⟩] : List (Exchange Op Op.Resp)) ++ [_] from eq) rfl
    cases last
    obtain rfl := clock_read stepe
    obtain ⟨l₁, x, l₂, at_x, lists⟩ :=
      exists_event_of_mem (show (⟨.listEnrollmentRequests, .ok reqs⟩ : Exchange Op Op.Resp) ∈ exchanges tid (h₀ ++ e₀ :: h₁) by simp [first])
    have whole : h = l₁ ++ x :: (l₂ ++ e :: h₂) := by
      rw [at_e, at_x]
      simp
    obtain ⟨before, stepx, -⟩ := (whole ▸ run).split_event
    rw [lists] at stepx
    obtain rfl := listed stepx
    obtain ⟨c, mem, creates⟩ := created_of_mem before initial (List.mem_of_find?_eq_some found)
    have same : req.pollingToken = row.pollingToken := by
      rw [right]
      simpa using List.find?_some found
    obtain rfl := created_unique run initial ⟨c, by simp [whole, mem], creates⟩ known' (.inr same)
    by_cases expired : req.expiresAt < e.pre.world.now
    · exact .inr (.inr (.inl expired))
    · rw [if_neg expired] at answer
      cases answer
  · -- the bundle was there, and had expired
    obtain ⟨first, last⟩ := List.append_inj' (show _ = ([⟨.listEnrollmentRequests, .ok reqs⟩,
      ⟨.removeApproved (sha256 token), some entry⟩] : List (Exchange Op Op.Resp)) ++ [_] from eq) rfl
    cases last
    obtain rfl := clock_read stepe
    obtain ⟨l₁, x, l₂, at_x, takes⟩ := exists_event_of_mem
      (show (⟨.removeApproved (sha256 token), some entry⟩ : Exchange Op Op.Resp) ∈ exchanges tid (h₀ ++ e₀ :: h₁) by simp [first])
    have whole : h = l₁ ++ x :: (l₂ ++ e :: h₂) := by
      rw [at_e, at_x]
      simp
    obtain ⟨before, stepx, -⟩ := (whole ▸ run).split_event
    rw [takes] at stepx
    obtain ⟨a, k₁, y, k₂, rfl, stores, -⟩ := lastStored_of_lookup before initial (removed stepx).1
    cases expired : entry.isExpired e.pre.world.now with
    | true =>
      rw [right.symm] at stores
      exact .inr (.inr (.inr ⟨y, by simp [at_x], a, entry, stores, expired⟩))
    | false =>
      rw [expired] at answer
      cases answer
  · -- there is neither
    obtain ⟨first, last⟩ := List.append_inj'
      (show _ = ([⟨.listEnrollmentRequests, .ok reqs⟩] : List (Exchange Op Op.Resp)) ++ [_] from eq) rfl
    cases last
    rw [right.symm] at label
    obtain ⟨l₁, x, l₂, at_x, lists⟩ :=
      exists_event_of_mem (show (⟨.listEnrollmentRequests, .ok reqs⟩ : Exchange Op Op.Resp) ∈ exchanges tid (h₀ ++ e₀ :: h₁) by simp [first])
    have unlisted : row ∉ reqs := fun mem => by
      have other := List.find?_eq_none.mp absent row mem
      simp [right] at other
    obtain ⟨c, mem, tid', payload, tokenHash, creates⟩ := known
    obtain ⟨c₁, c₂, rfl⟩ := List.append_of_mem mem
    -- the poll lists the requests after the creation
    have silent : exchanges tid (c₁ ++ c :: c₂) = [] := by
      obtain ⟨before, -⟩ := (split ▸ run).split_event
      exact before.exchanges_beyond (Nat.le_of_eq starts.1.symm)
    obtain ⟨m, later⟩ : ∃ m, c₂ ++ e₀ :: h₁ = m ++ x :: l₂ ∧ l₁ = c₁ ++ c :: m := by
      rcases split_cases (show c₁ ++ c :: (c₂ ++ e₀ :: h₁) = l₁ ++ x :: l₂ by rw [← at_x]; simp) with
        ⟨-, rfl, -⟩ | ⟨m, eq, before⟩ | ⟨m, eq, before⟩
      · rw [creates] at lists
        cases lists
      · exact ⟨m, eq, before⟩
      · have mem := mem_exchanges (h := c₁ ++ c :: c₂) (by simp [before]) lists
        rw [silent] at mem
        cases mem
    obtain ⟨later, rfl⟩ := later
    have whole : h = c₁ ++ c :: (m ++ x :: (l₂ ++ e :: h₂)) := by
      rw [at_e, at_x]
      simp
    have later' : x.pre.world.now ≤ e.pre.world.now := by
      have run' := whole ▸ run
      rw [show c₁ ++ c :: (m ++ x :: (l₂ ++ e :: h₂)) = (c₁ ++ c :: m) ++ x :: (l₂ ++ e :: h₂) by simp] at run'
      obtain ⟨-, stepx, rest⟩ := run'.split_event
      obtain ⟨between, -⟩ := rest.split_event
      exact Int.le_trans (clock_grows stepx) (clock_run between)
    rw [at_x]
    rcases lost_of_unlisted run initial whole creates lists unlisted with ⟨d, mem, denies⟩ | expired |
        ⟨k₁, d, k₂, a, auth, n, rfl, deletes, by_, present⟩
    · exact .inr (.inl ⟨d, List.mem_append_left _ mem, denies⟩)
    · exact .inr (.inr (.inl (Int.lt_of_lt_of_le expired later')))
    · have ended := ended_of_deleted run initial inTime
        (show h = (c₁ ++ c :: k₁) ++ d :: ((k₂ ++ x :: l₂) ++ e :: h₂) by simp [whole])
        deletes by_ present known' label
      simpa using ended

theorem delivered_once {a tid tid' : Nat} {tokenHash' : String} {entry' : ApprovedEntry}
    (first : Delivers h a tid tokenHash entry) (second : Delivers h a tid' tokenHash' entry') : tid = tid' := by
  obtain ⟨_, x, h₂, eq, takes, k₁, y, k₂, rfl, stores, last⟩ := first
  obtain ⟨_, x', h₂', eq', takes', k₁', y', k₂', rfl, stores', last'⟩ := second
  have at_y : h = k₁ ++ y :: (k₂ ++ x :: h₂) := by simp [eq]
  have at_y' : h = k₁' ++ y' :: (k₂' ++ x' :: h₂') := by simp [eq']
  rcases split_cases (at_y.symm.trans at_y') with ⟨rfl, rfl, same⟩ | ⟨m, later, -⟩ | ⟨m, later, -⟩
  · rw [stores] at stores'
    cases stores'
    rcases split_cases same with ⟨-, rfl, -⟩ | ⟨m, later, rfl⟩ | ⟨m, later, rfl⟩
    · rw [takes] at takes'
      cases takes'
      rfl
    · have whole : h = (k₁ ++ y :: k₂) ++ x :: (m ++ x' :: h₂') := by rw [at_y, later]; simp
      obtain ⟨z, mem, b, stores⟩ := stored_between run whole takes takes'
      exact absurd stores (last' z (by simp [mem]) b entry)
    · have whole : h = (k₁ ++ y :: k₂') ++ x' :: (m ++ x :: h₂) := by rw [at_y', later]; simp
      obtain ⟨z, mem, b, stores⟩ := stored_between run whole takes' takes
      exact absurd stores (last z (by simp [mem]) b entry)
  · exact absurd stores' (store_once run initial (by rw [at_y, later]) stores)
  · exact absurd stores (store_once run initial (by rw [at_y', later]) stores')

/-- A poll that is answered with a bundle has taken it, and where there is no repository
    configuration the answer is all of it. -/
theorem whole_of_unconfigured (unconfigured : NoConfiguration cfg h) {tid : Nat} {token : String}
    {answer : EnrollmentStatusResponse} {pki : PkiBundle} (answered : Answered sha256 h t tid token answer)
    (bundle : answer.bundle = some pki) :
    ∃ a entry, Delivers h a tid (sha256 token) entry ∧ pki = entry.pki := by
  obtain ⟨reqs, ⟨req, now, -, -, rfl⟩ | ⟨-, ⟨entry, now, eq, rfl⟩ | ⟨-, rfl⟩⟩⟩ :=
    enrollStatus_returns answered.2
  · split at bundle <;> cases bundle
  · obtain ⟨h₁, x, h₂, rfl, takes⟩ := exists_event_of_mem
      (show (⟨.removeApproved (sha256 token), some entry⟩ : Exchange Op Op.Resp) ∈ exchanges tid h by simp [eq])
    have whole := run
    obtain ⟨before, step, -⟩ := run.split_event
    rw [takes] at step
    obtain ⟨a, last⟩ := lastStored_of_lookup before initial (removed step).1
    have delivers : Delivers (h₁ ++ x :: h₂) a tid (sha256 token) entry := ⟨h₁, x, h₂, rfl, takes, last⟩
    refine ⟨a, entry, delivers, ?_⟩
    obtain ⟨k₁, y, k₂, rfl, stores, -⟩ := last
    have at_y : k₁ ++ y :: k₂ ++ x :: h₂ = k₁ ++ y :: (k₂ ++ x :: h₂) := by simp
    obtain ⟨auth, id, l, stamp, req, pki', by_, exchanged, returns, -, rfl⟩ :=
      stored_by whole initial at_y stores
    obtain ⟨reqs', others, reads, rfl, found, config⟩ := generateBundle_returns returns
    have none_ := unconfigured _ _ _ _ _ _ _ _ _ reqs' _ at_y stores by_ delivers
      (by rw [exchanged]; simp) found
    have reads_none : Unconfigured cfg req reads := none_.imp_right fun ⟨alpine, empty⟩ =>
      ⟨alpine, fun r mem => empty r (by rw [exchanged]; simp [mem])⟩
    have configured := (repoConfigFor_eq_none_iff config).mpr reads_none
    split at bundle
    · cases bundle
    · obtain rfl := Option.some.inj bundle
      simp only [ApprovedEntry.new, ← configured]
  · cases bundle

/-- Enrollments are delivered, where bundles are stored in time and have no configuration of a
    repository. -/
theorem enrollment_delivered (inTime : StoredInTime h) (unconfigured : NoConfiguration cfg h) :
    Delivery sha256 h t := by
  refine ⟨?found, ?once, ?whole⟩
  case found =>
    intro h₀ e₀ h₁ e h₂ tid token o r row split starts known right label returns
    exact found_of_inTime run initial inTime split starts known right label returns
  case once =>
    intro a tid tid' tokenHash tokenHash' entry entry' first second
    exact delivered_once run initial first second
  case whole =>
    intro tid token answer pki answered bundle
    exact whole_of_unconfigured run initial unconfigured answered bundle

end runs

/-! ## A poll during an approval -/

namespace Small

def repo : RepoServerConfig := ⟨"https://pm/repo", "gpg.pub", "rsa.pub"⟩

/-- A host that does not say what it runs. -/
def payload : CreateEnrollmentRequest := ⟨"machine", "host", "10.0.0.1", .null, none⟩

def administrator : AuthUser := { userId := 1, username := "ann", role := .admin }

def signed : Signed := ⟨"01", 0, "cert", "key"⟩

def start : State := ⟨{ now := 0 }, []⟩

abbrev player : Player (enrollment id repo "root").machine := (enrollment id repo "root").player

/-- A host asks, and an approval comes to the end of its statements. -/
def approving : List (Move player) :=
  [.call (.enrollHost payload), .run 0 (.token "t"), .run 0 (.row 1 "10.0.0.1"),
    .call (.approveEnrollment administrator 1), .run 1 .ok, .run 1 .ok, .run 1 .ok, .run 1 (.signed signed),
    .run 1 .ok, .run 1 (.signed signed), .run 1 .ok, .run 1 .ok]

def poll (tid : Nat) : List (Move player) := [.call (.enrollStatus "t"), .run tid .ok, .run tid .ok]

/-- The bundle is stored, and two polls ask for it. -/
def delivered : List (Move player) :=
  approving ++ [.run 1 (.text "crl"), .run 1 .ok, .run 1 .ok] ++ poll 2 ++ [.run 2 .ok] ++ poll 3

/-- A poll asks before the bundle is stored. -/
def tooEarly : List (Move player) := approving ++ poll 2

def stores (a : Nat) (e : Event World Op Op.Resp Fn) : Bool :=
  match e.label with
  | .op b (.insertApproved _ _) _ => a == b
  | _ => false

def restarts (e : Event World Op Op.Resp Fn) : Bool :=
  match e.label with
  | .restart => true
  | _ => false

/-- Task `a` has stored a bundle that the process still has. -/
def storedBy (a : Nat) : History → Bool
  | [] => false
  | y :: rest => (stores a y && rest.all fun z => !restarts z) || storedBy a rest

/-- Whoever has deleted a request has stored a bundle since. -/
def settled : History → Bool
  | [] => true
  | x :: rest =>
    (match x.label with
      | .op a (.deleteEnrollmentRequest _) _ => storedBy a rest
      | _ => true) && settled rest

/-- The step does not look for a bundle, or nothing is under way. -/
def looksInTime (before : History) (e : Event World Op Op.Resp Fn) : Bool :=
  match e.label with
  | .op _ (.removeApproved _) _ => settled before
  | _ => true

/-- No request listed names a distribution. -/
def namesNone (e : Event World Op Op.Resp Fn) : Bool :=
  match e.label with
  | .op _ .listEnrollmentRequests (.ok reqs) => reqs.all fun req => req.distroId.isNone
  | _ => true

theorem storedBy_split {a : Nat} {h : History} (stored : storedBy a h = true) :
    ∃ y₁ y y₂ tokenHash entry, h = y₁ ++ y :: y₂ ∧ y.label = .op a (.insertApproved tokenHash entry) () ∧
      ∀ z ∈ y₂, z.label ≠ .restart := by
  induction h with
  | nil => cases stored
  | cons x rest ih =>
    rcases Bool.or_eq_true _ _ ▸ stored with here | later
    · obtain ⟨stores_, running⟩ := Bool.and_eq_true _ _ ▸ here
      obtain ⟨pre, label, post⟩ := x
      cases label with
      | op b o r =>
        cases o with
        | insertApproved tokenHash entry =>
          obtain rfl : a = b := by simpa [stores] using stores_
          refine ⟨[], _, rest, tokenHash, entry, rfl, rfl, fun z mem ends => ?_⟩
          have test := List.all_eq_true.mp running z mem
          simp [restarts, ends] at test
        | _ => cases stores_
      | _ => cases stores_
    · obtain ⟨y₁, y, y₂, tokenHash, entry, rfl, label, running⟩ := ih later
      exact ⟨x :: y₁, y, y₂, tokenHash, entry, rfl, label, running⟩

theorem storedBy_of_settled {x₁ x₂ : History} {x : Event World Op Op.Resp Fn} {a : Nat} {id : Uuid}
    {r : Except String Nat} (test : settled (x₁ ++ x :: x₂) = true)
    (label : x.label = .op a (.deleteEnrollmentRequest id) r) : storedBy a x₂ = true := by
  induction x₁ with
  | nil =>
    simp only [List.nil_append, settled, label, Bool.and_eq_true] at test
    exact test.1
  | cons y rest ih =>
    simp only [List.cons_append, settled, Bool.and_eq_true] at test
    exact ih test.2

end Small

/-- The first of two polls gets the bundle. -/
theorem enrollment_delivered_once :
    Delivery id (Small.player.history Small.start Small.delivered)
      (Player.last Small.start (Small.player.history Small.start Small.delivered)) := by
  have plays : (Small.player.play Small.start Small.delivered).isSome = true := by decide +kernel
  have inTime : checksAll Small.looksInTime (Small.player.history Small.start Small.delivered) = true := by
    decide +kernel
  have unnamed : (Small.player.history Small.start Small.delivered).all Small.namesNone = true := by
    decide +kernel
  refine @enrollment_delivered id Small.repo _ _ _ _ (Small.player.run_of_play plays) ⟨rfl, rfl, rfl⟩ ?_ ?_
  · intro x₁ x x₂ e h₂ a auth id n tid tokenHash r row split deletes _ _ _ _ looks _
    have test := test_of_checksAll inTime (show _ = (x₁ ++ x :: x₂) ++ e :: h₂ by simp [split])
    simp only [Small.looksInTime, looks] at test
    exact Small.storedBy_split (Small.storedBy_of_settled test deletes)
  · intro h₁ y h₂ a auth id tid tokenHash entry reqs req split _ _ _ lists found
    obtain ⟨l₁, x, l₂, rfl, label⟩ := exists_event_of_mem lists
    have test := List.all_eq_true.mp unnamed x (by simp [split])
    simp only [Small.namesNone, label] at test
    exact .inl (Option.isNone_iff_eq_none.mp (List.all_eq_true.mp test req (List.mem_of_find?_eq_some found)))

namespace Small

/-- Nothing that ends an enrollment: no poll has taken a bundle, none is stored, and nobody denies. -/
def goesOn (e : Event World Op Op.Resp Fn) : Bool :=
  match e.label with
  | .op _ (.removeApproved _) (some _) => false
  | .op _ (.insertApproved _ _) _ => false
  | .op tid (.deleteEnrollmentRequest _) _ => (e.pre.tasks[tid]?).any fun task =>
    match task.root with
    | .denyEnrollment _ _ => false
    | _ => true
  | _ => true

theorem not_ended {h : History} {row : EnrollmentRequest} {now : Time} (goes : h.all goesOn = true)
    (unexpired : now ≤ row.expiresAt) : ¬ Ended h row now := by
  rintro (⟨e, mem, tid, entry, label, -⟩ | ⟨e, mem, tid, auth, n, label, task, at_, root⟩ | expired |
    ⟨e, mem, tid, entry, label, -⟩)
  · have test := List.all_eq_true.mp goes e mem
    simp [goesOn, label] at test
  · have test := List.all_eq_true.mp goes e mem
    simp [goesOn, label, at_, root] at test
  · exact absurd expired (Int.not_lt.mpr unexpired)
  · have test := List.all_eq_true.mp goes e mem
    simp [goesOn, label] at test

/-- The step files a request with the token "t". -/
def files (e : Event World Op Op.Resp Fn) : Bool :=
  match e.label with
  | .op _ (.createEnrollmentRequest _ _) (.ok row) => row.pollingToken == "t" && decide (0 ≤ row.expiresAt)
  | _ => false

theorem created_of_files {h : History} (filed : h.any files = true) :
    ∃ row, Created h row ∧ row.pollingToken = "t" ∧ 0 ≤ row.expiresAt := by
  obtain ⟨e, mem, test⟩ := List.any_eq_true.mp filed
  obtain ⟨pre, label, post⟩ := e
  cases label with
  | op tid o r =>
    cases o with
    | createEnrollmentRequest payload tokenHash =>
      cases r with
      | ok row =>
        simp only [files, Bool.and_eq_true, beq_iff_eq, decide_eq_true_eq] at test
        exact ⟨row, ⟨_, mem, tid, payload, tokenHash, rfl⟩, test⟩
      | error e => cases test
    | _ => cases test
  | _ => cases test

/-- The step begins a poll as task 2. -/
def polls (e : Event World Op Op.Resp Fn) : Bool :=
  match e.label with
  | .enter (.enrollStatus token) => token == "t" && e.pre.tasks.length == 2
  | _ => false

theorem starts_of_polls {e : Event World Op Op.Resp Fn} (test : polls e = true) :
    e.Starts 2 (.enrollStatus "t") := by
  obtain ⟨pre, label, post⟩ := e
  cases label with
  | enter f =>
    cases f with
    | enrollStatus token =>
      simp only [polls, Bool.and_eq_true, beq_iff_eq] at test
      obtain ⟨rfl, two⟩ := test
      exact ⟨two.symm, .inr rfl⟩
    | _ => cases test
  | _ => cases test

/-- The step is one of task 2, which finds no bundle. -/
def findsNone (e : Event World Op Op.Resp Fn) : Bool :=
  match e.label with
  | .op tid (.removeApproved tokenHash) none => tid == 2 && tokenHash == "t" && e.pre.world.now == 0
  | _ => false

theorem label_of_findsNone {e : Event World Op Op.Resp Fn} (test : findsNone e = true) :
    e.label = .op 2 (.removeApproved "t") none ∧ e.pre.world.now = 0 := by
  obtain ⟨pre, label, post⟩ := e
  cases label with
  | op tid o r =>
    cases o with
    | removeApproved tokenHash =>
      cases r with
      | none =>
        simp only [findsNone, Bool.and_eq_true, beq_iff_eq] at test
        obtain ⟨⟨rfl, rfl⟩, now⟩ := test
        exact ⟨rfl, now⟩
      | some entry => cases test
    | _ => cases test
  | _ => cases test

end Small

/-- A poll that comes too early is told that there is nothing. -/
theorem poll_during_approval : ¬ ∀ (sha256 : String → String) (cfg : RepoServerConfig)
    (caRootPem : String) (s t : State) (h : History), Initial s →
    Run (enrollment sha256 cfg caRootPem).machine s h t → Delivery sha256 h t := by
  intro all
  have plays : (Small.player.play Small.start Small.tooEarly).isSome = true := by decide +kernel
  have found := (all id Small.repo "root" _ _ _ ⟨rfl, rfl, rfl⟩ (Small.player.run_of_play plays)).found
  obtain ⟨e₀, at₀, polls⟩ := (Option.any_eq_true _ _).mp (show
    ((Small.player.history Small.start Small.tooEarly)[12]?).any Small.polls = true by decide +kernel)
  obtain ⟨e, at_, finds⟩ := (Option.any_eq_true _ _).mp (show
    ((Small.player.history Small.start Small.tooEarly)[14]?).any Small.findsNone = true by decide +kernel)
  obtain ⟨row, known, token, unexpired⟩ := Small.created_of_files (show
    ((Small.player.history Small.start Small.tooEarly).take 12).any Small.files = true by decide +kernel)
  obtain ⟨label, clock⟩ := Small.label_of_findsNone finds
  have split := exists_split_of_getElem? at₀ at_ (by decide)
  have before := (take_of_getElem? at₀ (show 12 < 14 by decide)).symm
  have ended := found _ e₀ _ e _ 2 "t" _ _ row split (Small.starts_of_polls polls) known token label ?_
  · rw [before, clock] at ended
    exact Small.not_ended (by decide +kernel) unexpired ended
  · rw [before]
    exact .op (.op .ret)

end PatchManager.Enrollment
