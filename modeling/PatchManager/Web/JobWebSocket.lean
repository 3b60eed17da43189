import Mathlib.Data.List.Basic

/-! # The live updates of a page

`useJobWebSocket.ts`: a hook of one component that keeps a WebSocket open and asks for a new ticket
before each connection.  Its references outlive its effects, so what an effect has left behind in the
browser meets the references of the next one.

Everything runs on the thread of the page.  An event that cannot happen in a state leaves it alone.
-/

namespace PatchManager.JobWebSocket

def backoffInitialMs : Nat := 1000
def backoffMaxMs : Nat := 30000
def backoffFactor : Nat := 2

inductive ReadyState where
  | connecting
  | opened
  | closing
  | closed
deriving DecidableEq

/-- A socket that the hook has made.  `enabled` here and below is what the closure has captured. -/
structure Socket where
  ticket : String
  readyState : ReadyState := .connecting
  /-- `onclose` and `onerror` are still set -/
  listening : Bool := true
  enabled : Bool
deriving DecidableEq

/-- `close()`. -/
def Socket.close (ws : Socket) : Socket :=
  { ws with readyState := if ws.readyState = .closed then .closed else .closing }

/-- A request for a ticket on its way. -/
structure TicketCall where
  id : Nat
  enabled : Bool
deriving DecidableEq

/-- A timeout that has not fired. -/
structure Timer where
  id : Nat
  enabled : Bool
deriving DecidableEq

structure Hook (JobWsEvent : Type) where
  /-- the option of the effect that runs, if one does -/
  effect : Option Bool := none
  mountedRef : Bool := true
  /-- the position in `sockets` -/
  wsRef : Option Nat := none
  retryTimerRef : Option Nat := none
  backoffRef : Nat := backoffInitialMs
  connected : Bool := false
  lastEvent : Option JobWsEvent := none
  calls : List TicketCall := []
  sockets : List Socket := []
  timers : List Timer := []
  /-- how many calls and timeouts there have been -/
  made : Nat := 0
  /-- the delays since a socket was opened last; no function reads them -/
  delays : List Nat := []
deriving DecidableEq

variable {JobWsEvent : Type}

namespace Hook

def clearRetryTimer (h : Hook JobWsEvent) : Hook JobWsEvent :=
  match h.retryTimerRef with
  | some id => { h with timers := h.timers.filter (·.id ≠ id), retryTimerRef := none }
  | none => h

def closeSocket (h : Hook JobWsEvent) : Hook JobWsEvent :=
  match h.wsRef with
  | some i => { h with sockets := h.sockets.modify i fun ws => Socket.close { ws with listening := false }, wsRef := none }
  | none => h

/-- `connect`, up to the answer to the request. -/
def connect (enabled : Bool) (h : Hook JobWsEvent) : Hook JobWsEvent :=
  if !h.mountedRef || !enabled then h
  else
    let h := h.closeSocket
    { h with calls := h.calls ++ [⟨h.made, enabled⟩], made := h.made + 1 }

def scheduleReconnect (enabled : Bool) (h : Hook JobWsEvent) : Hook JobWsEvent :=
  if !h.mountedRef then h
  else
    let h := h.clearRetryTimer
    let delay := h.backoffRef
    { h with
      backoffRef := min (delay * backoffFactor) backoffMaxMs
      timers := h.timers ++ [⟨h.made, enabled⟩]
      retryTimerRef := some h.made
      made := h.made + 1
      delays := h.delays ++ [delay] }

/-- The rest of `connect`: `constructed` is false if the constructor of `WebSocket` throws. -/
def answered (enabled : Bool) (ticket : Option String) (constructed : Bool) (h : Hook JobWsEvent) : Hook JobWsEvent :=
  match ticket with
  | none => h.scheduleReconnect enabled
  | some ticket =>
    if !h.mountedRef then h
    else if constructed then
      { h with sockets := h.sockets ++ [{ ticket, enabled }], wsRef := some h.sockets.length }
    else h.scheduleReconnect enabled

def onopen (i : Nat) (h : Hook JobWsEvent) : Hook JobWsEvent :=
  if !h.mountedRef then { h with sockets := h.sockets.modify i Socket.close }
  else { h with backoffRef := backoffInitialMs, connected := true, delays := [] }

/-- `event` is what `JSON.parse` makes of the message. -/
def onmessage (event : Option JobWsEvent) (h : Hook JobWsEvent) : Hook JobWsEvent :=
  if !h.mountedRef then h
  else match event with
    | some event => { h with lastEvent := some event }
    | none => h

def onclose (enabled : Bool) (h : Hook JobWsEvent) : Hook JobWsEvent :=
  if !h.mountedRef then h
  else scheduleReconnect enabled { h with connected := false, wsRef := none }

/-- The body of the effect. -/
def runEffect (enabled : Bool) (h : Hook JobWsEvent) : Hook JobWsEvent :=
  let h := { h with effect := some enabled, mountedRef := true }
  if enabled then h.connect enabled else h

def cleanup (h : Hook JobWsEvent) : Hook JobWsEvent :=
  { ({ h with effect := none, mountedRef := false }).clearRetryTimer.closeSocket with connected := false }

end Hook

/-! ## Events -/

/-- React runs the effect again after its cleanup, for a changed option and, while developing, once more at
    the first mount. -/
inductive Event (JobWsEvent : Type) where
  | effect (enabled : Bool)
  | cleanup
  | answer (call : Nat) (ticket : Option String) (constructed : Bool)
  | timeout (timer : Nat)
  | opened (socket : Nat)
  | message (socket : Nat) (event : Option JobWsEvent)
  | closed (socket : Nat)
deriving DecidableEq

def handle (h : Hook JobWsEvent) : Event JobWsEvent → Hook JobWsEvent
  | .effect enabled => if h.effect.isNone then h.runEffect enabled else h
  | .cleanup => if h.effect.isSome then h.cleanup else h
  | .answer call ticket constructed =>
    match h.calls.find? (·.id = call) with
    | some c => { h with calls := h.calls.filter (·.id ≠ call) }.answered c.enabled ticket constructed
    | none => h
  | .timeout timer =>
    match h.timers.find? (·.id = timer) with
    | some t =>
      let h := { h with timers := h.timers.filter (·.id ≠ timer) }
      if h.mountedRef then h.connect t.enabled else h
    | none => h
  | .opened i =>
    match h.sockets[i]? with
    | some ws =>
      if ws.readyState = .connecting then
        { h with sockets := h.sockets.modify i fun ws => { ws with readyState := .opened } }.onopen i
      else h
    | none => h
  | .message i event =>
    match h.sockets[i]? with
    | some ws => if ws.readyState = .opened then h.onmessage event else h
    | none => h
  | .closed i =>
    match h.sockets[i]? with
    | some ws =>
      if ws.readyState = .closed then h
      else
        let h := { h with sockets := h.sockets.modify i fun ws => { ws with readyState := .closed } }
        if ws.listening then h.onclose ws.enabled else h
    | none => h

end PatchManager.JobWebSocket
