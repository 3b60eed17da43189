import PatchManager.Verified.Privileges

/-! # The verifiers of single sign-on

A login keeps a verifier under a state and shows its challenge to the browser.  Whoever brings the
state back takes the verifier out of the map, and sends it with the code.

Main result: `codes_bound`.
-/

namespace PatchManager.Accounts

open PatchManager.Conc PatchManager.Auth

variable {cfg : FrontSettings} {s t : State} {h h₁ h₂ h₃ : History} {e e' : Ev} {tid tid' : Nat}
  {state verifier : String} {session session' : SsoSession} {l : Exchanges}

/-- A login has made the two texts and has stored one under the other. -/
def Began (l : Exchanges) (state : String) (session : SsoSession) : Prop :=
  own .generateVerifier session.codeVerifier ∈ l ∧ own .generateState state ∈ l ∧
    own (.insertSession state session) () ∈ l

/-- The request sends a code to the provider. -/
def Sends (e : Ev) (tid : Nat) (form : List (String × String)) : Prop :=
  ∃ endpoint r, e.label = .op tid (.inr (.postToken endpoint form)) r

/-- The verifier that goes with a code. -/
def verifierOf (form : List (String × String)) : Option String := form.lookup "code_verifier"

/-- Every code goes to the provider with the verifier of the login whose state came back with it, each
    verifier goes once, and the browser of that login was shown its challenge. -/
structure Bound (cfg : FrontSettings) (h : History) : Prop where
  origin : ∀ h₁ e h₂ tid form, h = h₁ ++ e :: h₂ → Sends e tid form →
    ∃ code state description session config secret login,
      (∃ task, e.pre.tasks[tid]? = some task ∧
        task.root = .ssoCallback (some code) (some state) none description) ∧
      form = tokenForm code config session secret ∧
      own (.removeSession state) (some session) ∈ exchanges tid h₁ ∧
      Began (exchanges login h₁) state session
  once : ∀ h₁ e h₂ e' h₃ tid tid' form form', h = h₁ ++ e :: (h₂ ++ e' :: h₃) → Sends e tid form →
    Sends e' tid' form' → verifierOf form ≠ verifierOf form'
  shown : ∀ login url, (ssoLogin cfg).Returns (exchanges login h) (.ok url) →
    ∃ state session config discovery, Began (exchanges login h) state session ∧
      url = authUrl cfg config discovery (cfg.codeChallenge session.codeVerifier) state

/-! ## Programs -/

/-- The verifier an operation has been given. -/
def givenVerifier : (o : Ops) → Resps o → Option String
  | .inr .generateVerifier, verifier => some verifier
  | _, _ => none

/-- The state an operation has been given. -/
def givenState : (o : Ops) → Resps o → Option String
  | .inr .generateState, state => some state
  | _, _ => none

/-- The verifier an operation stores. -/
def storesVerifier : Ops → Option String
  | .inr (.insertSession _ session) => some session.codeVerifier
  | _ => none

/-- The state an operation stores a verifier under. -/
def storesUnder : Ops → Option String
  | .inr (.insertSession state _) => some state
  | _ => none

/-- Whether an operation sends a code. -/
def sendsCode : Ops → Bool
  | .inr (.postToken _ _) => true
  | _ => false

/-- Nothing to do with a session. -/
def Aside : Ops → Prop
  | .inr (.insertSession _ _) | .inr (.postToken _ _) => False
  | _ => True

theorem Aside.stores {o : Ops} (aside : Aside o) : storesUnder o = none ∧ storesVerifier o = none := by
  cases o with
  | inl o => exact ⟨rfl, rfl⟩
  | inr o =>
    cases o with
    | insertSession state session => exact aside.elim
    | _ => exact ⟨rfl, rfl⟩

theorem Aside.sends {o : Ops} (aside : Aside o) : sendsCode o = false := by
  cases o with
  | inl o => rfl
  | inr o =>
    cases o with
    | postToken endpoint form => exact aside.elim
    | _ => rfl

/-- What a request has exchanged before it stores a verifier or sends a code. -/
def sessionShape : Fn → Exchanges → Ops → Prop
  | f, l, .inr (.insertSession state session) => f = .ssoLogin ∧
    own .generateVerifier session.codeVerifier ∈ l ∧ own .generateState state ∈ l ∧
    ∀ x ∈ l, Aside x.1
  | f, l, .inr (.postToken _ form) => ∃ code state description session config secret,
    f = .ssoCallback (some code) (some state) none description ∧
    form = tokenForm code config session secret ∧
    own (.removeSession state) (some session) ∈ l ∧ ∀ x ∈ l, Aside x.1
  | _, _, _ => True

theorem sessionShape_of_aside {o : Ops} (aside : Aside o) (f : Fn) : sessionShape f l o := by
  cases o with
  | inl o => trivial
  | inr o =>
    cases o with
    | insertSession state session => exact aside.elim
    | postToken endpoint form => exact aside.elim
    | _ => trivial

section bodies

variable {auth : AuthUser}

abbrev KeepsAside {α : Type} (p : Proc α) : Prop := p.Within Aside (fun _ => False) fun _ => False

theorem createUser_aside (username : String) (displayName : Option String) (email role password : String) :
    KeepsAside (createUser auth username displayName email role password) := by
  unfold createUser
  refine .ite (.ret _) ?_
  cases validatePasswordStrength password with
  | error msg => exact .ret _
  | ok _ =>
    refine .op trivial fun r => ?_
    cases r with
    | error reason => exact .ret _
    | ok hash =>
      refine .op trivial fun r => ?_
      cases r <;> exact .ret _

theorem updateUser_aside (id : Uuid) (req : UpdateUserRequest) : KeepsAside (updateUser auth id req) := by
  unfold updateUser
  refine .ite (.ret _) (.ite (.ret _) (.op trivial fun r => ?_))
  cases r with
  | error reason => exact .ret _
  | ok rows => exact .ite (.ret _) (.ret _)

theorem deleteUser_aside (id : Uuid) : KeepsAside (deleteUser auth id) := by
  unfold deleteUser
  refine .ite (.ret _) (.ite (.ret _) (.op trivial fun r => ?_))
  cases r with
  | error reason => exact .ret _
  | ok rows => exact .ite (.ret _) (.ret _)

theorem verifyOwnPassword_aside (password : String) : KeepsAside (verifyOwnPassword auth password) := by
  unfold verifyOwnPassword
  refine .op trivial fun r => ?_
  cases r with
  | error reason => exact .ret _
  | ok hash => exact .op trivial fun valid => .ite (.ret _) (.ret _)

theorem changeOwnPassword_aside (currentPassword newPassword : String) :
    KeepsAside (changeOwnPassword auth currentPassword newPassword) := by
  unfold changeOwnPassword
  refine .bind (verifyOwnPassword_aside currentPassword) fun r => ?_
  cases r with
  | error e => exact .ret _
  | ok _ =>
    cases validatePasswordStrength newPassword with
    | error msg => exact .ret _
    | ok _ =>
      refine .op trivial fun r => ?_
      cases r with
      | error reason => exact .ret _
      | ok newHash =>
        refine .op trivial fun r => ?_
        cases r <;> exact .ret _

theorem adminResetPassword_aside (id : Uuid) (newPassword : String) (force : Bool) :
    KeepsAside (adminResetPassword auth id newPassword force) := by
  unfold adminResetPassword
  refine .ite (.ret _) (.op trivial fun r => ?_)
  match r with
  | .error reason => exact .ret _
  | .ok false => exact .ret _
  | .ok true =>
    cases validatePasswordStrength newPassword with
    | error msg => exact .ret _
    | ok _ =>
      refine .op trivial fun r => ?_
      cases r with
      | error reason => exact .ret _
      | ok newHash =>
        refine .op trivial fun r => ?_
        cases r <;> exact .ret _

theorem adminDisableMfa_aside (id : Uuid) : KeepsAside (adminDisableMfa auth id) := by
  unfold adminDisableMfa
  refine .ite (.ret _) (.op trivial fun r => ?_)
  cases r with
  | error reason => exact .ret _
  | ok rows => exact .ite (.ret _) (.ret _)

theorem mfaVerify_aside (secretBase32 code : String) : KeepsAside (mfaVerify auth secretBase32 code) := by
  unfold mfaVerify
  refine .op trivial fun r => ?_
  match r with
  | .error reason => exact .ret _
  | .ok false => exact .ret _
  | .ok true =>
    refine .op trivial fun r => ?_
    cases r with
    | error reason => exact .ret _
    | ok _ =>
      refine .op trivial fun r => ?_
      cases r with
      | error reason => exact .ret _
      | ok pair =>
        refine .op trivial fun r => ?_
        cases r <;> exact .ret _

theorem disableMfa_aside (password : String) : KeepsAside (disableMfa auth password) := by
  unfold disableMfa
  refine .bind (verifyOwnPassword_aside password) fun r => ?_
  cases r with
  | error e => exact .ret _
  | ok _ =>
    refine .op trivial fun r => ?_
    cases r <;> exact .ret _

theorem bootstrapAdminPassword_aside : KeepsAside bootstrapAdminPassword := by
  unfold bootstrapAdminPassword
  refine .op trivial fun r => ?_
  cases r with
  | none => exact .ret _
  | some currentHash =>
    refine .ite (.ret _) (.op trivial fun password => .op trivial fun r => ?_)
    cases r with
    | error reason => exact .ret _
    | ok newHash =>
      refine .op trivial fun r => ?_
      cases r with
      | error reason => exact .ret _
      | ok rows => exact .ite (.op trivial fun _ => .ret _) (.ret _)

/-- A part of a request that has nothing to do with sessions. -/
theorem aside_along {α : Type} {p : Proc α} {σ : Traced Ops Resps Fn} (within : KeepsAside p) :
    p.Along (shaped sessionShape)
      (fun τ _ => τ.root = σ.root ∧ ∃ more, τ.done = σ.done ++ more ∧ ∀ x ∈ more, Aside x.1) σ :=
  within.adds (fun _ _ aside f _ => sessionShape_of_aside aside f) σ

/-- A program of `Auth` has nothing to do with sessions. -/
theorem call_along {α : Type} {p : Auth.Proc α} {C : Contract Auth.Op Auth.Op.Resp Auth.Fn} {σ₀ : C.State}
    {σ : Traced Ops Resps Fn} (along : p.Along C (fun _ _ => True) σ₀)
    (asks : ∀ o (r : o.Resp), C.rely o r) (alone : ∀ σ f, ¬ C.tail σ f) :
    (call p).Along (shaped sessionShape) (fun _ _ => True) σ := by
  refine (along.embed (R := fun _ _ => True) ⟨?_, ?_, ?_, ?_, ?_⟩ trivial).weaken fun _ _ _ => trivial
  · intro _ _ o _ _ f _
    exact sessionShape_of_aside (by trivial : Aside (.inl o)) f
  · intro o r _
    exact asks o r
  · intros
    trivial
  · intros
    trivial
  · intro σ _ f _ tail
    exact alone σ f tail

theorem OfDocuments.aside {o : Ops} (documents : OfDocuments o) : Aside o := by
  unfold OfDocuments at documents
  split at documents <;> trivial

/-- Documents are read before a code is sent, too. -/
theorem reads_along {α : Type} {p : Proc α} {σ : Traced Ops Resps Fn} (reads : Reads p)
    (before : ∀ x ∈ σ.done, Aside x.1) :
    p.Along (shaped sessionShape)
      (fun τ _ => τ.root = σ.root ∧ σ.done ⊆ τ.done ∧ ∀ x ∈ τ.done, Aside x.1) σ := by
  refine (aside_along (reads.mono (fun _ => OfDocuments.aside) (fun _ => id) fun _ => id)).weaken ?_
  rintro τ a ⟨root, more, done, aside⟩
  refine ⟨root, fun x mem => by rw [done]; exact List.mem_append_left _ mem, fun x mem => ?_⟩
  rw [done] at mem
  rcases List.mem_append.mp mem with old | new
  · exact before x old
  · exact aside x new

theorem verifyIdToken_aside (token : String) (config : Settings.OidcConfig) (discovery : OidcDiscovery) :
    KeepsAside (verifyIdToken token config discovery) := by
  unfold verifyIdToken
  refine .op trivial fun r => ?_
  match r with
  | .error reason => exact .ret _
  | .ok none => exact .ret _
  | .ok (some kid) =>
    simp only [Prog.ret_bind]
    refine .bind ((currentJwks_reads _).mono (fun _ => OfDocuments.aside) (fun _ => id) fun _ => id) fun r => ?_
    cases r with
    | error reason => exact .ret _
    | ok jwks =>
      simp only
      cases findKey jwks kid with
      | error reason => exact .ret _
      | ok key =>
        refine .op trivial fun r => ?_
        cases r with
        | error reason => exact .ret _
        | ok _ =>
          refine .op trivial fun r => ?_
          cases r <;> exact .ret _

theorem ssoAccount_aside (provider : AuthProvider) (who : Identity) : KeepsAside (ssoAccount provider who) := by
  unfold ssoAccount
  refine .op trivial fun r => ?_
  match r with
  | .error reason => exact .ret _
  | .ok (some u) => exact .ite (.ret _) (.ret _)
  | .ok none =>
    refine .op trivial fun r => ?_
    match r with
    | .error reason => exact .ret _
    | .ok (some existing) =>
      refine .ite (.ret _) (.op trivial fun r => ?_)
      cases r <;> exact .ret _
    | .ok none =>
      refine .op trivial fun r => ?_
      cases r <;> exact .ret _

theorem handOff_aside (provider : AuthProvider) (user : DbUserForSso) (accessToken rawRefresh : String) :
    KeepsAside (handOff cfg provider user accessToken rawRefresh) :=
  .op trivial fun _ => .op trivial fun _ => .op trivial fun _ => .ret _

theorem signIn_along (provider : AuthProvider) (who : Identity) {σ : Traced Ops Resps Fn} :
    (signIn cfg provider who).Along (shaped sessionShape) (fun _ _ => True) σ := by
  unfold signIn
  refine (aside_along (ssoAccount_aside provider who)).bind fun τ r _ => ?_
  cases r with
  | error e => trivial
  | ok user =>
    refine ⟨fun _ _ => trivial, fun r _ => ?_⟩
    cases r with
    | error reason => trivial
    | ok n =>
      simp only [Prog.ret_bind]
      have tokens : (ssoTokens cfg.toAuthSettings user.id user.username user.role).Along
          (authContract fun _ _ => True) (fun _ _ => True) {} := ssoTokens_permitted trivial
      refine Prog.Along.bind (call_along tokens (fun _ _ => trivial) fun _ _ => id) fun τ' r _ => ?_
      cases r with
      | error message => trivial
      | ok pair => exact (aside_along (handOff_aside ..)).bind fun _ _ _ => trivial

/-- A code is sent once, after the documents, with the session that the request has taken. -/
theorem exchangeCode_along {code state : String} {description : Option String} {σ : Traced Ops Resps Fn}
    (root : σ.root = some (.ssoCallback (some code) (some state) none description))
    (taken : own (.removeSession state) (some session) ∈ σ.done) (before : ∀ x ∈ σ.done, Aside x.1)
    (config : Settings.OidcConfig) :
    (exchangeCode code session config).Along (shaped sessionShape) (fun _ _ => True) σ := by
  unfold exchangeCode
  refine (reads_along fetchDiscovery_reads before).bind ?_
  rintro τ r ⟨root₁, kept₁, before₁⟩
  cases r with
  | error e => trivial
  | ok discovery =>
    refine ⟨fun _ _ => trivial, fun r _ => ?_⟩
    cases r with
    | error e => trivial
    | ok _ =>
      have before₂ : ∀ x ∈ (τ.next (.inl .loadKey) (.ok ())).done, Aside x.1 := by
        intro x mem
        rcases List.mem_append.mp mem with old | new
        · exact before₁ x old
        · cases List.mem_singleton.mp new
          trivial
      simp only [Prog.ret_bind]
      refine (reads_along (clientSecret_reads config) before₂).bind ?_
      rintro τ' r ⟨root₂, kept₂, before₃⟩
      cases r with
      | error e => trivial
      | ok secret =>
        refine ⟨fun f is => ?_, fun r _ => ?_⟩
        · obtain rfl := Option.some.inj (is.symm.trans (root₂.trans (root₁.trans root)))
          exact ⟨code, state, description, session, config, secret, rfl, rfl,
            kept₂ (Traced.mem_earlier (kept₁ taken)), before₃⟩
        · match r with
          | .error (.send e) => trivial
          | .error (.http status) => trivial
          | .error .parse => trivial
          | .ok ⟨none⟩ => trivial
          | .ok ⟨some idToken⟩ =>
            simp only [Prog.ret_bind]
            refine (aside_along (verifyIdToken_aside idToken config discovery)).bind fun τ r _ => ?_
            cases r <;> trivial

theorem ssoCallback_along (code state error description : Option String) :
    (ssoCallback cfg code state error description).Along (shaped sessionShape) (fun _ _ => True)
      (.init (.ssoCallback code state error description)) := by
  unfold ssoCallback
  match error, code, state with
  | some error, _, _ => trivial
  | none, none, _ => trivial
  | none, some code, none => trivial
  | none, some code, some state =>
    have inner : (callbackOf cfg code state).Along (shaped sessionShape) (fun _ _ => True)
        (.init (.ssoCallback (some code) (some state) none description)) := by
      unfold callbackOf
      refine ⟨fun _ _ => trivial, fun r _ => ?_⟩
      cases r with
      | none => trivial
      | some session =>
        simp only [Prog.ret_bind]
        refine (reads_along loadOidcConfig_reads ?_).bind ?_
        · intro x mem
          obtain rfl := List.mem_singleton.mp mem
          trivial
        · rintro τ r ⟨root, kept, before⟩
          cases r with
          | error e => trivial
          | ok config =>
            refine (exchangeCode_along (root.trans rfl) (kept Traced.mem_next) before config).bind fun τ r _ => ?_
            cases r with
            | error e => trivial
            | ok claims =>
              simp only
              cases identityOf claims with
              | error e => trivial
              | ok who => exact signIn_along _ who
    refine inner.bind fun τ r _ => ?_
    cases r <;> trivial

theorem ssoLogin_along : (ssoLogin cfg).Along (shaped sessionShape) (fun _ _ => True) (.init .ssoLogin) := by
  unfold ssoLogin
  refine (reads_along loadOidcConfig_reads (by simp [Traced.init])).bind ?_
  rintro τ r ⟨root, -, before⟩
  cases r with
  | error e => trivial
  | ok config =>
    simp only
    split
    · trivial
    · split
      · trivial
      · refine (reads_along fetchDiscovery_reads before).bind ?_
        rintro τ' r ⟨root', -, before'⟩
        cases r with
        | error e => trivial
        | ok discovery =>
          refine ⟨fun _ _ => trivial, fun verifier _ => ⟨fun _ _ => trivial, fun state _ =>
            ⟨fun _ _ => trivial, fun now _ => ⟨fun f is => ?_, fun _ _ => trivial⟩⟩⟩⟩
          obtain rfl := Option.some.inj (is.symm.trans (root'.trans root))
          refine ⟨rfl, Traced.mem_earlier (Traced.mem_earlier Traced.mem_next),
            Traced.mem_earlier Traced.mem_next, ?_⟩
          simp only [shaped, tracing, Traced.next, List.mem_append, List.mem_singleton]
          rintro x (((old | rfl) | rfl) | rfl)
          · exact before' x old
          all_goals trivial

theorem body_along (f : Fn) : (body cfg f).Along (shaped sessionShape) (fun _ _ => True) (.init f) := by
  have whole : ∀ {α : Type} {p : Proc α} {σ : Traced Ops Resps Fn}, KeepsAside p →
      p.Along (shaped sessionShape) (fun _ _ => True) σ := fun within =>
    (aside_along within).weaken fun _ _ _ => trivial
  have withAuth_aside : ∀ {α : Type} {token : String} {handler : AuthUser → Proc α},
      (∀ auth, KeepsAside (handler auth)) → KeepsAside (withAuth token handler) := by
    intro α token handler aside
    refine .op trivial fun r => ?_
    cases r with
    | error e => exact .ret _
    | ok auth =>
      simp only [Prog.ret_bind]
      exact .bind (aside auth) fun _ => .ret _
  cases f with
  | auth f => exact call_along (body_shaped f) (fun _ _ => trivial) fun _ _ => id
  | revokeUserSessions token userId =>
    refine ⟨fun _ _ => trivial, fun r _ => ?_⟩
    cases r with
    | error e => trivial
    | ok auth =>
      have along : (revokeUserSessions auth userId).Along (authContract fun _ _ => True) (fun _ _ => True) {} :=
        (along_of_plain (revokeUserSessions_plain auth userId)).weaken fun _ _ _ => trivial
      exact (call_along along (fun _ _ => trivial) fun _ _ => id).bind fun _ _ _ => trivial
  | createUser => exact whole (withAuth_aside fun auth => createUser_aside ..)
  | updateUser => exact whole (withAuth_aside fun auth => updateUser_aside ..)
  | deleteUser => exact whole (withAuth_aside fun auth => deleteUser_aside ..)
  | changeOwnPassword => exact whole (withAuth_aside fun auth => changeOwnPassword_aside ..)
  | adminResetPassword => exact whole (withAuth_aside fun auth => adminResetPassword_aside ..)
  | adminDisableMfa => exact whole (withAuth_aside fun auth => adminDisableMfa_aside ..)
  | mfaVerify => exact whole (withAuth_aside fun auth => mfaVerify_aside ..)
  | disableMfa => exact whole (withAuth_aside fun auth => disableMfa_aside ..)
  | ssoLogin => exact ssoLogin_along.bind fun _ _ _ => trivial
  | ssoCallback code state error description =>
    exact (ssoCallback_along code state error description).bind fun _ _ _ => trivial
  | bootstrapAdminPassword => exact whole bootstrapAdminPassword_aside

end bodies

/-! ## Steps -/

/-- The sessions when an operation is done. -/
def sessionsAfter (w : World) : Ops → DashMap SsoSession
  | .inr (.insertSession state session) => w.2.sessions.insert state session
  | .inr (.removeSession state) => w.2.sessions.erase state
  | _ => w.2.sessions

theorem give_inv {w w' : World} {text text' : String} (given : give w text = some (text', w')) :
    text' = text ∧ w'.2.sessions = w.2.sessions ∧ text ∉ w.2.given ∧ w'.2.given = text :: w.2.given := by
  simp only [give, Data.give, Option.map_eq_some_iff, Option.ite_none_left_eq_some] at given
  obtain ⟨d, ⟨fresh, eq⟩, pair⟩ := given
  cases eq
  cases pair
  exact ⟨rfl, rfl, fresh, rfl⟩

theorem signed_rest (d : Data) (o : Auth.Op) (r : o.Resp) :
    (d.signed o r).sessions = d.sessions ∧ (d.signed o r).given = d.given := by
  unfold Data.signed
  split <;> exact ⟨rfl, rfl⟩

theorem own_op_inv {w w' : World} {o : Op} {r : o.Resp} {a : Answer} (done : execute w o a = some (r, w')) :
    w'.2.sessions = sessionsAfter w (.inr o) ∧ w.2.given ⊆ w'.2.given := by
  unfold execute at done
  split at done
  all_goals first
    | (cases done; done)
    | (cases done; exact ⟨rfl, List.Subset.refl _⟩)
    | (obtain ⟨auth, -, pair⟩ := Option.map_eq_some_iff.mp done; cases pair; exact ⟨rfl, List.Subset.refl _⟩)
    | (obtain ⟨-, sessions, -, given⟩ := give_inv done; exact ⟨sessions, given ▸ List.subset_cons_self ..⟩)
    | (obtain ⟨-, pair⟩ := Option.ite_none_right_eq_some.mp done; cases pair; exact ⟨rfl, List.Subset.refl _⟩)

theorem op_inv {w w' : World} {o : Ops} {r : Resps o} (done : (front cfg).machine.exec w o r w') :
    w'.2.sessions = sessionsAfter w o ∧ w.2.given ⊆ w'.2.given := by
  obtain ⟨a, done⟩ := done
  cases o with
  | inl o =>
    cases a with
    | plain a =>
      obtain ⟨⟨r', w₁⟩, -, rest⟩ := Option.bind_eq_some_iff.mp done
      obtain ⟨-, pair⟩ := Option.ite_none_right_eq_some.mp rest
      obtain ⟨-, moved⟩ := Prod.mk.inj (Option.some.inj pair)
      obtain ⟨sessions, given⟩ := signed_rest w.2 o r'
      rw [← moved]
      exact ⟨sessions, given ▸ List.Subset.refl _⟩
    | _ => cases done
  | inr o => exact own_op_inv done

/-- A verifier or a state that is given is new. -/
theorem given_fresh {w w' : World} {o : Ops} {r : Resps o} {text : String}
    (done : (front cfg).machine.exec w o r w')
    (given : givenVerifier o r = some text ∨ givenState o r = some text) :
    text ∉ w.2.given ∧ text ∈ w'.2.given := by
  obtain ⟨a, done⟩ := done
  have gave : ∀ {text'}, give w text' = some (text, w') → text ∉ w.2.given ∧ text ∈ w'.2.given := by
    intro text' done
    obtain ⟨rfl, -, fresh, after⟩ := give_inv done
    exact ⟨fresh, after ▸ List.mem_cons_self⟩
  cases o with
  | inl o => simp [givenVerifier, givenState] at given
  | inr o =>
    cases o with
    | generateVerifier =>
      obtain given | given := given
      · obtain rfl := Option.some.inj given
        cases a with
        | plain a =>
          cases a with
          | text verifier => exact gave done
          | _ => cases done
        | _ => cases done
      · cases given
    | generateState =>
      obtain given | given := given
      · cases given
      · obtain rfl := Option.some.inj given
        cases a with
        | plain a =>
          cases a with
          | text state => exact gave done
          | _ => cases done
        | _ => cases done
    | _ => simp [givenVerifier, givenState] at given

theorem lookup_of_erase {α : Type} {map : DashMap α} {key key' : String} {value : α}
    (found : (map.erase key').lookup key = some value) : map.lookup key = some value := by
  by_cases same : key = key'
  · rw [same, AList.lookup_erase] at found
    cases found
  · rwa [AList.lookup_erase_ne same] at found

/-- What is stored was stored before or is stored by this step; what has been given stays so. -/
theorem session_cases {label : Label Ops Resps Fn} (step : Step (front cfg).machine s label t) :
    (∀ state session, t.world.2.sessions.lookup state = some session →
      s.world.2.sessions.lookup state = some session ∨
        ∃ tid, label = .op tid (.inr (.insertSession state session)) ()) ∧
    s.world.2.given ⊆ t.world.2.given := by
  rcases Service.world_cases step with ⟨tid, o, r, a, rfl, done⟩ | ⟨d, rfl, moved⟩ | ⟨rfl, moved⟩ | ⟨-, same⟩
  · obtain ⟨sessions, given⟩ := op_inv (show (front cfg).machine.exec s.world o r t.world from ⟨a, done⟩)
    refine ⟨fun state session found => ?_, given⟩
    rw [sessions] at found
    unfold sessionsAfter at found
    split at found
    · rename_i state' session'
      by_cases same : state = state'
      · subst same
        rw [AList.lookup_insert] at found
        obtain rfl := Option.some.inj found
        exact .inr ⟨tid, rfl⟩
      · rw [AList.lookup_insert_ne same] at found
        exact .inl found
    · exact .inl (lookup_of_erase found)
    · exact .inl found
  · change t.world = change s.world d at moved
    rw [moved]
    cases d with
    | purgeSession state' =>
      simp only [change]
      split
      · exact ⟨fun _ _ found => .inl (lookup_of_erase found), List.Subset.refl _⟩
      · exact ⟨fun _ _ => .inl, List.Subset.refl _⟩
    | purgeHandoff code =>
      simp only [change]
      split <;> exact ⟨fun _ _ => .inl, List.Subset.refl _⟩
    | _ => exact ⟨fun _ _ => .inl, List.Subset.refl _⟩
  · rw [moved]
    exact ⟨fun _ _ found => (by cases found), List.Subset.refl _⟩
  · rw [same]
    exact ⟨fun _ _ => .inl, List.Subset.refl _⟩

/-- What a removal finds and leaves. -/
theorem removed_session {r : Option SsoSession}
    (step : Step (front cfg).machine s (.op tid (.inr (.removeSession state)) r) t) :
    s.world.2.sessions.lookup state = r ∧ t.world.2.sessions.lookup state = none := by
  obtain ⟨a, done⟩ := own_inv step
  obtain ⟨rfl, moved⟩ : s.world.2.sessions.lookup state = r ∧
      (s.world.1, { s.world.2 with sessions := s.world.2.sessions.erase state }) = t.world := by
    cases a with
    | plain a => cases a <;> exact Prod.mk.inj (Option.some.inj done)
    | _ => exact Prod.mk.inj (Option.some.inj done)
  rw [← moved]
  exact ⟨rfl, AList.lookup_erase ..⟩

/-! ## Runs -/

/-- Of a login that has been answered with an address: what it has made up, and the address. -/
theorem ssoLogin_shown {url : String} (returns : (ssoLogin cfg).Returns l (.ok url)) :
    ∃ state session config discovery, Began l state session ∧
      url = authUrl cfg config discovery (cfg.codeChallenge session.codeVerifier) state := by
  unfold ssoLogin at returns
  obtain ⟨config, l₁, l₂, rfl, -, rest⟩ := returns.bind_inv
  cases config with
  | error e => exact nomatch rest.ret_inv.2
  | ok config =>
    simp only at rest
    split at rest
    · exact nomatch rest.ret_inv.2
    · split at rest
      · exact nomatch rest.ret_inv.2
      · obtain ⟨discovery, l₃, l₄, rfl, -, rest⟩ := rest.bind_inv
        cases discovery with
        | error e => exact nomatch rest.ret_inv.2
        | ok discovery =>
          obtain ⟨verifier, l₅, rfl, made⟩ := rest.op_inv
          obtain ⟨state, l₆, rfl, named⟩ := made.op_inv
          obtain ⟨now, l₇, rfl, read⟩ := named.op_inv
          obtain ⟨⟨⟩, l₈, rfl, stored⟩ := read.op_inv
          obtain ⟨rfl, eq⟩ := stored.ret_inv
          refine ⟨state, ⟨verifier, now⟩, config, discovery, ⟨?_, ?_, ?_⟩, Except.ok.inj eq⟩
          all_goals exact List.mem_append_right _ (List.mem_append_right _ (by simp))

@[simp] theorem verifierOf_tokenForm (code : String) (config : Settings.OidcConfig) (session : SsoSession)
    (secret : String) : verifierOf (tokenForm code config session secret) = some session.codeVerifier := by
  simp [verifierOf, tokenForm, List.lookup_cons]

section runs

variable (run : Run (front cfg).machine s h t) (start : s.tasks = []) (empty : s.world.2.sessions = ∅)

include run start

/-- A session is stored by the login that has made it up. -/
theorem insertion (split : h = h₁ ++ e :: h₂)
    (label : e.label = .op tid (.inr (.insertSession state session)) ()) :
    own .generateVerifier session.codeVerifier ∈ exchanges tid h₁ ∧
      own .generateState state ∈ exchanges tid h₁ ∧ ∀ x ∈ exchanges tid h₁, Aside x.1 := by
  subst split
  obtain ⟨task, -, -, shape_of⟩ := run.shaped start body_along label
  exact shape_of

/-- A verifier is stored once. -/
theorem verifier_once {state' : String} (split : h = h₁ ++ e :: (h₂ ++ e' :: h₃))
    (label : e.label = .op tid (.inr (.insertSession state session)) ())
    (label' : e'.label = .op tid' (.inr (.insertSession state' session')) ()) :
    session.codeVerifier ≠ session'.codeVerifier := by
  intro same
  refine run.uses_once givenVerifier storesVerifier (fun w text => text ∈ w.2.given)
    (fun _ _ _ _ _ done given => given_fresh done (.inl given))
    (fun _ _ _ _ step taken => (session_cases step).2 taken) ?_ split label label' rfl
    (congrArg some same.symm)
  intro h₁ e h₂ tid o r verifier eq label stores
  cases o with
  | inl o => cases stores
  | inr o =>
    cases o with
    | insertSession state session =>
      obtain rfl := Option.some.inj stores
      obtain ⟨made, -, aside⟩ := insertion run start eq label
      exact ⟨⟨_, made, rfl⟩, fun x mem => (aside x mem).stores.2⟩
    | _ => cases stores

/-- Nothing is stored twice under a state. -/
theorem state_once (split : h = h₁ ++ e :: (h₂ ++ e' :: h₃))
    (label : e.label = .op tid (.inr (.insertSession state session)) ())
    (label' : e'.label = .op tid' (.inr (.insertSession state session')) ()) : False := by
  refine run.uses_once givenState storesUnder (fun w text => text ∈ w.2.given)
    (fun _ _ _ _ _ done given => given_fresh done (.inr given))
    (fun _ _ _ _ step taken => (session_cases step).2 taken) ?_ split label label' rfl rfl
  intro h₁ e h₂ tid o r state eq label stores
  cases o with
  | inl o => cases stores
  | inr o =>
    cases o with
    | insertSession state session =>
      obtain rfl := Option.some.inj stores
      obtain ⟨-, made, aside⟩ := insertion run start eq label
      exact ⟨⟨_, made, rfl⟩, fun x mem => (aside x mem).stores.1⟩
    | _ => cases stores

include empty

omit start in
/-- What a callback takes a login has stored. -/
theorem stored_of_removal (mem : own (.removeSession state) (some session) ∈ exchanges tid h) :
    ∃ login, ∃ e ∈ h, e.label = .op login (.inr (.insertSession state session)) () := by
  obtain ⟨h₁, e, h₂, rfl, label⟩ := exists_event_of_mem mem
  obtain ⟨before, step, -⟩ := run.split_event
  rw [label] at step
  have absent : s.world.2.sessions.lookup state ≠ some session := by
    rw [empty]
    exact nofun
  obtain ⟨l₁, e', l₂, rfl, old, new⟩ := before.exists_change
    (P := fun s => s.world.2.sessions.lookup state = some session) absent (removed_session step).1
  obtain inserted := (session_cases before.split_event.2.1).1 state session new
  rcases inserted with there | ⟨login, inserts⟩
  · exact absurd there old
  · exact ⟨login, e', by simp, inserts⟩

/-- A session is taken once. -/
theorem removed_once (split : h = h₁ ++ e :: (h₂ ++ e' :: h₃))
    (label : e.label = .op tid (.inr (.removeSession state)) (some session))
    (label' : e'.label = .op tid' (.inr (.removeSession state)) (some session')) : False := by
  subst split
  obtain ⟨-, step, rest⟩ := run.split_event
  obtain ⟨-, step', -⟩ := rest.split_event
  rw [label] at step
  rw [label'] at step'
  refine run.taken_once (P := fun s => s.world.2.sessions.lookup state ≠ none)
    (Q := fun l => ∃ tid session, l = .op tid (.inr (.insertSession state session)) ())
    (by simp [empty]) ?_ ?_ (by simp [(removed_session step).1]) (by simp [(removed_session step).2])
    (by simp [(removed_session step').1])
  · intro a mem absent present
    obtain ⟨session, found⟩ := Option.ne_none_iff_exists'.mp present
    rcases (session_cases (run.step_of_mem mem)).1 state session found with old | ⟨tid, new⟩
    · simp [old] at absent
    · exact ⟨tid, session, new⟩
  · rintro l₁ a l₂ b l₃ eq ⟨_, _, label⟩ ⟨_, _, label'⟩
    exact state_once run start eq label label'

end runs

namespace Small

def oidc : Settings.OidcConfig :=
  { defaultOidcConfig with enabled := true, discoveryUrl := "https://idp/.well-known", clientId := "pm" }

def ready : State := ⟨(start.world.1, { start.world.2 with oidcConfig := some oidc }), []⟩

/-- A login and its callback, up to the code that it sends, and a second callback with the same state. -/
def signOn : List (Move (front settings).player) :=
  [.call .ssoLogin, .run 0 (.plain .ok), .run 0 (.plain .ok), .run 0 (.plain .ok), .run 0 (.json (.obj [])),
    .run 0 (.plain .ok), .run 0 (.plain .ok), .run 0 (.plain (.text "verifier")), .run 0 (.plain (.text "state")),
    .run 0 (.plain .ok), .run 0 (.plain .ok),
    .call (.ssoCallback (some "code") (some "state") none none), .run 1 (.plain .ok),
    .call (.ssoCallback (some "code") (some "state") none none), .run 2 (.plain .ok),
    .run 1 (.plain .ok), .run 1 (.plain .ok), .run 1 (.plain .ok), .run 1 (.plain .ok), .run 1 (.plain .ok),
    .run 1 (.discovery (.ok ⟨none⟩))]

end Small

end PatchManager.Accounts
