import PatchManager.Conc.Handler
import Mathlib.Data.List.Range
import Mathlib.Data.List.Perm.Basic

/-! # The API client of the web pages

The interceptors of `client.ts` with the part of `authStore.ts` they use.  A page has one
thread: a handler runs to its end before anything else does, so a run of a page is a list of
events in any order.  Answers arrive for any request in flight, and the callbacks of promises
that are resolved run one by one later.

What the rest of the page does to the stored tokens (a login, a logout, the restore of a
session at page load) is the event `store`.
-/

namespace PatchManager.ApiClient

open PatchManager.Conc

/-- The fields of the store that the client reads and writes. -/
structure AuthState where
  accessToken : Option String
  refreshToken : Option String
deriving DecidableEq

/-- A token that is neither `null` nor the empty string. -/
def truthy : Option String → Option String
  | some token => if token = "" then none else some token
  | none => none

def AuthState.setTokens (_ : AuthState) (access refresh : String) : AuthState :=
  ⟨some access, some refresh⟩

def AuthState.logout (_ : AuthState) : AuthState := ⟨none, none⟩

/-- A request of the client's instance of axios: `call` numbers the calls of the page, whose
    promises wait for the outcome, and `retry` is `_retry` of the configuration. -/
structure Request where
  call : Nat
  authorization : Option String
  retry : Bool
deriving DecidableEq

/-- `error.response?.status`; an error without an answer has none. -/
structure AxiosError where
  status : Option Nat
deriving DecidableEq

inductive Outcome where
  | resolved
  | rejected (error : AxiosError)
deriving DecidableEq

/-- A request to `/auth/refresh` in flight, and the request it was sent for. -/
structure Refresh where
  original : Request
  refreshToken : String
deriving DecidableEq

structure Page where
  auth : AuthState
  isRefreshing : Bool
  /-- the requests whose promises wait for the end of a refresh -/
  failedQueue : List Request
  inFlight : List Request
  refreshes : List Refresh
  /-- waiting requests resolved with a token whose callbacks have not run yet -/
  resumed : List (Request × String)
  /-- the calls that are over -/
  settled : List (Nat × Outcome)
  /-- how many calls the page has made -/
  calls : Nat
deriving DecidableEq

/-- A page that has been loaded, with what the browser had stored. -/
def Page.load (auth : AuthState) : Page where
  auth := auth
  isRefreshing := false
  failedQueue := []
  inFlight := []
  refreshes := []
  resumed := []
  settled := []
  calls := 0

namespace Page

def bearer (token : String) : Option String := some ("Bearer " ++ token)

/-- `apiClient(original)`: the request interceptor attaches the access token. -/
def send (p : Page) (original : Request) : Page :=
  let config :=
    match truthy p.auth.accessToken with
    | some token => { original with authorization := bearer token }
    | none => original
  { p with inFlight := p.inFlight ++ [config] }

def settle (p : Page) (original : Request) (outcome : Outcome) : Page :=
  { p with settled := p.settled ++ [(original.call, outcome)] }

/-- `processQueue`, with the error or the token. -/
def processQueue (p : Page) : Except AxiosError String → Page
  | .error error =>
    { p with
      settled := p.settled ++ p.failedQueue.map fun w => (w.call, .rejected error)
      failedQueue := [] }
  | .ok token =>
    { p with resumed := p.resumed ++ p.failedQueue.map fun w => (w, token), failedQueue := [] }

/-- The response interceptor, from an error to the point where it waits. -/
def onRejected (p : Page) (original : Request) (error : AxiosError) : Page :=
  if error.status ≠ some 401 ∨ original.retry then
    p.settle original (.rejected error)
  else if p.isRefreshing then
    { p with failedQueue := p.failedQueue ++ [original] }
  else
    let original := { original with retry := true }
    let p := { p with isRefreshing := true }
    match truthy p.auth.refreshToken with
    | none =>
      let p := { p with auth := p.auth.logout }
      p.settle original (.rejected error)
    | some refreshToken => { p with refreshes := p.refreshes ++ [⟨original, refreshToken⟩] }

structure TokenResponse where
  accessToken : String
  refreshToken : String
deriving DecidableEq

/-- The response interceptor after the answer to the refresh, with its `finally`. -/
def onRefreshed (p : Page) (original : Request) : Except AxiosError TokenResponse → Page
  | .ok data =>
    let p := { p with auth := p.auth.setTokens data.accessToken data.refreshToken }
    let p := p.processQueue (.ok data.accessToken)
    let p := p.send { original with authorization := bearer data.accessToken }
    { p with isRefreshing := false }
  | .error refreshError =>
    let p := p.processQueue (.error refreshError)
    let p := { p with auth := p.auth.logout }
    let p := p.settle original (.rejected refreshError)
    { p with isRefreshing := false }

inductive Event where
  /-- the page calls the API -/
  | call
  /-- the `i`-th request in flight is answered, or fails -/
  | answer (i : Nat) (response : Except AxiosError Unit)
  /-- the `i`-th refresh in flight is answered, or fails -/
  | refreshed (i : Nat) (response : Except AxiosError TokenResponse)
  /-- the callback of the `i`-th resolved promise runs -/
  | resume (i : Nat)
  /-- other code of the page sets or clears the tokens -/
  | store (auth : AuthState)

/-- What the page does on one event; an answer to a request that is not in flight does not
    exist, and nothing happens. -/
def handle (p : Page) : Event → Page
  | .call => { p with calls := p.calls + 1 }.send ⟨p.calls, none, false⟩
  | .answer i response =>
    match p.inFlight[i]? with
    | none => p
    | some original =>
      let p := { p with inFlight := p.inFlight.eraseIdx i }
      match response with
      | .ok () => p.settle original .resolved
      | .error error => p.onRejected original error
  | .refreshed i response =>
    match p.refreshes[i]? with
    | none => p
    | some refresh =>
      { p with refreshes := p.refreshes.eraseIdx i }.onRefreshed refresh.original response
  | .resume i =>
    match p.resumed[i]? with
    | none => p
    | some (original, token) =>
      { p with resumed := p.resumed.eraseIdx i }.send
        { original with authorization := bearer token }
  | .store auth => { p with auth := auth }

/-- The events of a page since it was loaded. -/
abbrev visit (auth : AuthState) (events : List Event) : List (Handled Page Event) :=
  handling handle (load auth) events

end Page

end PatchManager.ApiClient
