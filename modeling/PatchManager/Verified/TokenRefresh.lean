import PatchManager.Web.ApiClient

/-! # One token refresh at a time

`client.ts` keeps a flag and a queue that all requests of a page share: the first request
answered 401 refreshes the tokens, the others wait for the end of that refresh.  The interceptor
gives the flag back on every path but one: where no refresh token is stored, it returns before
the `try`, and `isRefreshing` stays set.

Main results:

* `one_place`: every call of a page is in exactly one place, so none is lost or answered twice.
* `orderly_iff`: the flag and the queue are right in every state of a run if and only if no
  request is stranded in it.
* `stranded_for_ever`: after a request is stranded no refresh is sent any more, and what waits
  in the queue stays there.
-/

namespace PatchManager.ApiClient

open PatchManager.Conc Page

variable {p : Page} {e : Event}

/-! ## No call is lost -/

/-- In how many places the call `k` stands. -/
def Page.held (p : Page) (k : Nat) : Nat :=
  p.inFlight.countP (·.call = k) + p.failedQueue.countP (·.call = k)
    + p.refreshes.countP (·.original.call = k) + p.resumed.countP (·.1.call = k)
    + p.settled.countP (·.1 = k)

/-- A call that is answered, sent again or put aside stands in one place more. -/
def one (original : Request) (k : Nat) : Nat := if original.call = k then 1 else 0

/-- Taking one element out of a list, counted. -/
theorem countP_eraseIdx {A : Type} {l : List A} {i : Nat} {a : A} (q : A → Bool)
    (at_ : l[i]? = some a) : l.countP q = (l.eraseIdx i).countP q + if q a then 1 else 0 := by
  obtain ⟨inside, rfl⟩ := List.getElem?_eq_some_iff.mp at_
  rw [← (List.getElem_cons_eraseIdx_perm inside).countP_eq, List.countP_cons]

theorem held_send (k : Nat) (original : Request) :
    (p.send original).held k = p.held k + one original k := by
  unfold Page.send
  split <;> simp [Page.held, one, List.countP_append, List.countP_cons] <;> omega

theorem held_settle (k : Nat) (original : Request) (outcome : Outcome) :
    (p.settle original outcome).held k = p.held k + one original k := by
  simp [Page.settle, Page.held, one, List.countP_append, List.countP_cons]
  omega

/-- Those who waited are settled or resumed. -/
theorem held_processQueue (k : Nat) (result : Except AxiosError String) :
    (p.processQueue result).held k = p.held k := by
  cases result with
  | error error =>
    simp [Page.processQueue, Page.held, List.countP_append, List.countP_map, Function.comp_def]
    omega
  | ok token =>
    simp [Page.processQueue, Page.held, List.countP_append, List.countP_map, Function.comp_def]
    omega

theorem held_onRejected (k : Nat) (original : Request) (error : AxiosError) :
    (p.onRejected original error).held k = p.held k + one original k := by
  unfold Page.onRejected
  split
  · exact held_settle ..
  · split
    · simp [Page.held, one, List.countP_append, List.countP_cons]
      omega
    · dsimp only
      split
      · exact held_settle ..
      · simp [Page.held, one, List.countP_append, List.countP_cons]
        omega

theorem held_onRefreshed (k : Nat) (original : Request)
    (response : Except AxiosError TokenResponse) :
    (p.onRefreshed original response).held k = p.held k + one original k := by
  cases response with
  | ok data =>
    let queued : Page := { p with auth := p.auth.setTokens data.accessToken data.refreshToken }
    have moved := held_processQueue (p := queued) k (.ok data.accessToken)
    have sent := held_send (p := queued.processQueue (.ok data.accessToken)) k
      { original with authorization := bearer data.accessToken }
    rw [moved] at sent
    exact sent
  | error refreshError =>
    have moved := held_processQueue (p := p) k (.error refreshError)
    have ended := held_settle (p := { p.processQueue (.error refreshError) with
      auth := p.auth.logout }) k original (.rejected refreshError)
    exact ended.trans (congrArg (· + _) moved)

theorem calls_onRejected (original : Request) (error : AxiosError) :
    (p.onRejected original error).calls = p.calls := by
  unfold Page.onRejected
  split
  · rfl
  · split
    · rfl
    · dsimp only
      split <;> rfl

theorem calls_onRefreshed (original : Request) (response : Except AxiosError TokenResponse) :
    (p.onRefreshed original response).calls = p.calls := by
  cases response <;> rfl

/-- Every call made so far is in one place, and no other is in any. -/
def Page.Counted (p : Page) : Prop := ∀ k, p.held k = if k < p.calls then 1 else 0

/-- A call taken out of one place and put into another. -/
theorem counted_moved {before after taken : Page} {original : Request} (counted : before.Counted)
    (calls : after.calls = before.calls)
    (out : ∀ k, before.held k = taken.held k + one original k)
    (back : ∀ k, after.held k = taken.held k + one original k) : after.Counted := by
  intro k
  rw [back, ← out, calls]
  exact counted k

theorem counted_handle (counted : p.Counted) : (p.handle e).Counted := by
  cases e with
  | call =>
    intro k
    have sent := held_send (p := { p with calls := p.calls + 1 }) k ⟨p.calls, none, false⟩
    have before : Page.held { p with calls := p.calls + 1 } k = if k < p.calls then 1 else 0 :=
      counted k
    rw [before] at sent
    refine sent.trans ?_
    show _ = if k < p.calls + 1 then 1 else 0
    simp only [one]
    split <;> split <;> split <;> omega
  | answer i response =>
    simp only [Page.handle]
    split
    · exact counted
    · rename_i original at_
      have out (k : Nat) : p.held k
          = Page.held { p with inFlight := p.inFlight.eraseIdx i } k + one original k := by
        have taken := countP_eraseIdx (·.call = k) at_
        simp only [Page.held, one, taken, decide_eq_true_eq]
        omega
      cases response with
      | ok => exact counted_moved counted rfl out fun k => held_settle k original .resolved
      | error error =>
        exact counted_moved counted (calls_onRejected original error) out
          fun k => held_onRejected k original error
  | refreshed i response =>
    simp only [Page.handle]
    split
    · exact counted
    · rename_i refresh at_
      have out (k : Nat) : p.held k
          = Page.held { p with refreshes := p.refreshes.eraseIdx i } k + one refresh.original k := by
        have taken := countP_eraseIdx (·.original.call = k) at_
        simp only [Page.held, one, taken, decide_eq_true_eq]
        omega
      exact counted_moved counted (calls_onRefreshed refresh.original response) out
        fun k => held_onRefreshed k refresh.original response
  | resume i =>
    simp only [Page.handle]
    split
    · exact counted
    · rename_i original token at_
      have out (k : Nat) : p.held k
          = Page.held { p with resumed := p.resumed.eraseIdx i } k + one original k := by
        have taken := countP_eraseIdx (·.1.call = k) at_
        simp only [Page.held, one, taken, decide_eq_true_eq]
        omega
      exact counted_moved counted rfl out
        fun k => held_send k { original with authorization := bearer token }
  | store auth => exact counted

/-- No call is lost and none is answered twice: in every state of every run each call made so
    far is in flight, waiting, behind a refresh of its own, about to be sent again, or over. -/
theorem one_place (auth : AuthState) (events : List Event) :
    ∀ a ∈ visit auth events, a.post.Counted := by
  have start : (load auth).Counted := by
    intro k
    simp [Page.load, Page.held]
  exact fun a mem => (handling_preserves start (fun _ _ => counted_handle) a mem).2

/-! ## What an event does to the flag and the queue -/

/-- The promise of a waiting request is resolved, or its call is rejected. -/
def Page.Answers (p : Page) (waiting : Request) : Prop :=
  (∃ token, (waiting, token) ∈ p.resumed) ∨ ∃ error, (waiting.call, .rejected error) ∈ p.settled

/-- The event is the end of a refresh. -/
def EndsRefresh (p : Page) : Event → Prop
  | .refreshed i _ => i < p.refreshes.length
  | _ => False

/-- A request that has not been sent again is answered 401 where no refresh is under way and no
    refresh token is stored. -/
def Strands (p : Page) (e : Event) : Prop :=
  ∃ i original, e = .answer i (.error ⟨some 401⟩) ∧ p.inFlight[i]? = some original ∧
    original.retry = false ∧ p.isRefreshing = false ∧ truthy p.auth.refreshToken = none

/-- The ways in which one event can change what the requests of a page share. -/
inductive Effect (p : Page) (e : Event) (p' : Page) : Prop
  | aside (flag : p'.isRefreshing = p.isRefreshing) (queue : p'.failedQueue = p.failedQueue)
      (same : p'.refreshes = p.refreshes)
  | waits (busy : p.isRefreshing = true) (flag : p'.isRefreshing = true) (original : Request)
      (queue : p'.failedQueue = p.failedQueue ++ [original]) (same : p'.refreshes = p.refreshes)
  | strands (strands : Strands p e) (flag : p'.isRefreshing = true)
      (queue : p'.failedQueue = p.failedQueue) (same : p'.refreshes = p.refreshes)
  | begins (idle : p.isRefreshing = false) (flag : p'.isRefreshing = true)
      (queue : p'.failedQueue = p.failedQueue) (refresh : Refresh)
      (sent : p'.refreshes = p.refreshes ++ [refresh])
  | ends (ends : EndsRefresh p e) (flag : p'.isRefreshing = false) (queue : p'.failedQueue = [])
      (i : Nat) (rest : p'.refreshes = p.refreshes.eraseIdx i) (inside : i < p.refreshes.length)
      (answers : ∀ waiting ∈ p.failedQueue, p'.Answers waiting)

/-- The end of a refresh gives the flag back and answers all who wait. -/
theorem onRefreshed_answers (original : Request) (response : Except AxiosError TokenResponse) :
    (p.onRefreshed original response).isRefreshing = false ∧
      (p.onRefreshed original response).failedQueue = [] ∧
      (p.onRefreshed original response).refreshes = p.refreshes ∧
      ∀ waiting ∈ p.failedQueue, (p.onRefreshed original response).Answers waiting := by
  cases response with
  | ok data =>
    refine ⟨rfl, rfl, rfl, fun waiting mem => .inl ⟨data.accessToken, ?_⟩⟩
    exact List.mem_append_right _ (List.mem_map.mpr ⟨waiting, mem, rfl⟩)
  | error refreshError =>
    refine ⟨rfl, rfl, rfl, fun waiting mem => .inr ⟨refreshError, ?_⟩⟩
    apply List.mem_append_left
    exact List.mem_append_right _ (List.mem_map.mpr ⟨waiting, mem, rfl⟩)

theorem effect (p : Page) (e : Event) : Effect p e (p.handle e) := by
  cases e with
  | call => exact .aside rfl rfl rfl
  | store auth => exact .aside rfl rfl rfl
  | resume i =>
    simp only [Page.handle]
    split <;> exact .aside rfl rfl rfl
  | refreshed i response =>
    simp only [Page.handle]
    split
    · exact .aside rfl rfl rfl
    · rename_i refresh at_
      have inside := (List.getElem?_eq_some_iff.mp at_).1
      obtain ⟨flag, queue, rest, answers⟩ := onRefreshed_answers
        (p := { p with refreshes := p.refreshes.eraseIdx i }) refresh.original response
      exact .ends inside flag queue i rest inside answers
  | answer i response =>
    simp only [Page.handle]
    split
    · exact .aside rfl rfl rfl
    · rename_i original at_
      cases response with
      | ok => exact .aside rfl rfl rfl
      | error error =>
        simp only [Page.onRejected]
        split
        · exact .aside rfl rfl rfl
        · rename_i unauthorized
          push Not at unauthorized
          split
          · rename_i busy
            exact .waits busy busy original rfl rfl
          · rename_i idle
            have idle : p.isRefreshing = false := by simpa using idle
            split
            · rename_i absent
              obtain ⟨status⟩ := error
              obtain rfl : status = some 401 := unauthorized.1
              exact .strands ⟨i, original, rfl, at_, by simpa using unauthorized.2, idle, absent⟩
                rfl rfl rfl
            · exact .begins idle rfl rfl _ rfl

theorem Strands.idle (strands : Strands p e) : p.isRefreshing = false := by
  obtain ⟨i, original, -, -, -, idle, -⟩ := strands
  exact idle

/-- A stranded request leaves the flag set with no refresh to give it back. -/
theorem Strands.leaves (strands : Strands p e) :
    (p.handle e).isRefreshing = true ∧ (p.handle e).refreshes = p.refreshes := by
  obtain ⟨i, original, rfl, at_, first, idle, absent⟩ := strands
  simp [Page.handle, at_, Page.onRejected, first, idle, absent, Page.settle]

/-- Where a refresh ends, all who wait are answered. -/
theorem EndsRefresh.answers (ends : EndsRefresh p e) :
    ∀ waiting ∈ p.failedQueue, (p.handle e).Answers waiting := by
  cases e with
  | refreshed i response =>
    simp only [Page.handle, List.getElem?_eq_getElem ends]
    exact (onRefreshed_answers (p := { p with refreshes := p.refreshes.eraseIdx i }) _ response).2.2.2
  | call | store | resume | answer => exact ends.elim

/-- Who waits goes on waiting until a refresh ends. -/
theorem waits_on {waiting : Request} (goes_on : ¬ EndsRefresh p e) (mem : waiting ∈ p.failedQueue) :
    waiting ∈ (p.handle e).failedQueue := by
  cases effect p e with
  | aside _ queue | strands _ _ queue | begins _ _ queue => rwa [queue]
  | waits _ _ original queue =>
    rw [queue]
    exact List.mem_append_left _ mem
  | ends ends => exact absurd ends goes_on

/-! ## The invariants -/

/-- A refresh in flight holds the flag, and without the flag nobody waits. -/
structure Coupled (p : Page) : Prop where
  one : p.refreshes.length ≤ 1
  holds : p.isRefreshing = false → p.refreshes = [] ∧ p.failedQueue = []

theorem coupled_handle (coupled : Coupled p) : Coupled (p.handle e) := by
  cases effect p e with
  | aside flag queue same => exact ⟨same ▸ coupled.one, by rw [flag, same, queue]; exact coupled.holds⟩
  | waits _ flag _ _ same => exact ⟨same ▸ coupled.one, by simp [flag]⟩
  | strands _ flag _ same => exact ⟨same ▸ coupled.one, by simp [flag]⟩
  | begins idle flag _ refresh sent =>
    refine ⟨?_, by simp [flag]⟩
    rw [sent, (coupled.holds idle).1]
    simp
  | ends _ _ queue i rest inside =>
    have none : (p.handle e).refreshes = [] := by
      rw [← List.length_eq_zero_iff, rest, List.length_eraseIdx_of_lt inside]
      have := coupled.one
      omega
    exact ⟨by simp [none], fun _ => ⟨none, queue⟩⟩

/-- The flag is set only while a refresh is in flight. -/
def Backed (p : Page) : Prop := p.isRefreshing = true → p.refreshes ≠ []

theorem backed_handle (safe : ¬ Strands p e) (backed : Backed p) : Backed (p.handle e) := by
  unfold Backed at *
  cases effect p e with
  | aside flag _ same => rwa [flag, same]
  | waits busy _ _ _ same =>
    rw [same]
    exact fun _ => backed busy
  | strands strands => exact absurd strands safe
  | begins _ _ _ refresh sent => simp [sent]
  | ends _ flag => simp [flag]

/-- At most one refresh is in flight, and while none is the flag is down and nobody waits. -/
def Tidy (p : Page) : Prop :=
  p.refreshes.length ≤ 1 ∧ (p.refreshes = [] → p.isRefreshing = false ∧ p.failedQueue = [])

theorem Tidy.of (coupled : Coupled p) (backed : Backed p) : Tidy p := by
  refine ⟨coupled.one, fun none => ?_⟩
  have idle : p.isRefreshing = false := by
    by_contra busy
    exact backed (by simpa using busy) none
  exact ⟨idle, (coupled.holds idle).2⟩

/-! ## Whole runs -/

/-- Whoever waits when a refresh ends, from whenever on, is answered by that end. -/
def QueueAnswered (h : List (Handled Page Event)) : Prop :=
  ∀ h₁ a h₂ b h₃, h = h₁ ++ a :: (h₂ ++ b :: h₃) →
    (∀ c ∈ h₂, ¬ EndsRefresh c.pre c.event) → EndsRefresh b.pre b.event →
      ∀ waiting ∈ a.post.failedQueue, b.post.Answers waiting

theorem queueAnswered (auth : AuthState) (events : List Event) :
    QueueAnswered (visit auth events) := by
  intro h₁ a h₂ b h₃ eq between ends waiting mem
  have still : waiting ∈ b.pre.failedQueue :=
    handling_until (I := fun p => waiting ∈ p.failedQueue) eq mem
      fun c inside => waits_on (between c inside)
  have inside : b ∈ visit auth events := by simp [eq]
  rw [handling_post inside]
  exact ends.answers waiting still

/-- The queue and the flag of a run are right: in every state, and at every end of a refresh. -/
structure Orderly (h : List (Handled Page Event)) : Prop where
  states : ∀ a ∈ h, Tidy a.post
  queue : QueueAnswered h

theorem visit_coupled (auth : AuthState) (events : List Event) :
    ∀ a ∈ visit auth events, Coupled a.pre ∧ Coupled a.post := by
  have start : Coupled (load auth) := ⟨by simp [Page.load], by simp [Page.load]⟩
  exact handling_preserves start fun _ _ => coupled_handle

/-- A run is orderly if and only if it strands no request: the flag of a refresh that cannot be
    sent is never given back. -/
theorem orderly_iff (auth : AuthState) (events : List Event) :
    Orderly (visit auth events) ↔ ∀ a ∈ visit auth events, ¬ Strands a.pre a.event := by
  constructor
  · intro orderly a mem strands
    obtain ⟨-, rest⟩ := orderly.states a mem
    obtain ⟨flag, same⟩ := strands.leaves
    rw [← handling_post mem] at flag same
    have coupled := (visit_coupled auth events a mem).1
    have none : a.post.refreshes = [] := same.trans (coupled.holds strands.idle).1
    rw [(rest none).1] at flag
    cases flag
  · intro safe
    refine ⟨fun a mem => ?_, queueAnswered auth events⟩
    have start : Backed (load auth) := by simp [Backed, Page.load]
    have backed := handling_preserves start (fun b inside => backed_handle (safe b inside)) a mem
    exact .of (visit_coupled auth events a mem).2 backed.2

/-- A page that was just loaded, where a login with a wrong password is answered 401; then a
    login succeeds, and a later call is answered 401. -/
def loginTwice : List Event :=
  [.call, .answer 0 (.error ⟨some 401⟩), .call, .answer 0 (.ok ()),
    .store ⟨some "access", some "refresh"⟩, .call, .answer 0 (.error ⟨some 401⟩)]

theorem login_blocks_refresh :
    ¬ Orderly (visit ⟨none, none⟩ loginTwice) ∧
      ∃ a ∈ visit ⟨none, none⟩ loginTwice, a.post.refreshes = [] ∧ a.post.isRefreshing = true ∧
        a.post.failedQueue.map (·.call) = [2] := by
  have blocked : ∃ a ∈ visit ⟨none, none⟩ loginTwice, a.post.refreshes = [] ∧
      a.post.isRefreshing = true ∧ a.post.failedQueue.map (·.call) = [2] := by
    decide
  refine ⟨fun orderly => ?_, blocked⟩
  obtain ⟨a, mem, none, busy, -⟩ := blocked
  rw [((orderly.states a mem).2 none).1] at busy
  cases busy

/-! ## After a request is stranded -/

/-- The flag is set and no refresh will give it back. -/
def Stuck (p : Page) : Prop := p.isRefreshing = true ∧ p.refreshes = []

theorem stuck_handle (stuck : Stuck p) :
    Stuck (p.handle e) ∧ p.failedQueue ⊆ (p.handle e).failedQueue := by
  obtain ⟨busy, none⟩ := stuck
  have goes_on : ¬ EndsRefresh p e := by
    cases e <;> simp [EndsRefresh, none]
  refine ⟨?_, fun waiting mem => waits_on goes_on mem⟩
  cases effect p e with
  | aside flag _ same => exact ⟨flag.trans busy, same.trans none⟩
  | waits _ flag _ _ same => exact ⟨flag, same.trans none⟩
  | strands _ flag _ same => exact ⟨flag, same.trans none⟩
  | begins idle => rw [idle] at busy; cases busy
  | ends ends => exact absurd ends goes_on

/-- After a request is stranded, for as long as the page lives no refresh is sent, the flag stays
    set, and whoever comes to wait goes on waiting. -/
theorem stranded_for_ever (auth : AuthState) (events : List Event) {h₁ h₂ : List (Handled Page Event)}
    {a : Handled Page Event} (eq : visit auth events = h₁ ++ a :: h₂)
    (strands : Strands a.pre a.event) :
    ∀ b ∈ h₂, Stuck b.post ∧ b.pre.failedQueue ⊆ b.post.failedQueue := by
  have coupled := (visit_coupled auth events a (by simp [eq])).1
  obtain ⟨post, later, rfl⟩ := handling_split eq
  have start : Stuck a.post := by
    obtain ⟨flag, same⟩ := strands.leaves
    rw [post]
    exact ⟨flag, same.trans (coupled.holds strands.idle).1⟩
  intro b mem
  have stuck := handling_preserves start (fun _ _ stuck => (stuck_handle stuck).1) b mem
  refine ⟨stuck.2, ?_⟩
  rw [handling_post mem]
  exact (stuck_handle stuck.1).2

end PatchManager.ApiClient
