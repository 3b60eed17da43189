import Mathlib.Algebra.Group.Nat.Defs
import PatchManager.Web.JobWebSocket

/-! # Reconnecting

What an effect of the hook has started goes on in the browser when the effect is over: an answer that
comes late meets the references of the next effect, which says only that it is mounted and not that
it is enabled.

Main results, for every order of events:

* `connection_kept`: while its first effect runs, the hook asks for a ticket, waits, or has one socket, and
  never two of these.
* `attempts_bounded`: with further effects there are never more attempts than effects with the option set;
  `disabled_silent`: without a request left over, a disabled hook does nothing.
* `retries_tidy`: there is one timeout at most, none after a cleanup, and the delays double up to the limit.
-/

namespace PatchManager.JobWebSocket

open Hook

variable {JobWsEvent : Type} {h : Hook JobWsEvent} {e : Event JobWsEvent} {b : Bool}

/-! ## Lists -/

section lists

variable {A : Type} {p : A → Bool} {f : A → A} {l : List A} {i : Nat} {a : A}

theorem countP_modify_le (keeps : ∀ a, l[i]? = some a → p (f a) = true → p a = true) :
    (l.modify i f).countP p ≤ l.countP p := by
  induction l generalizing i with
  | nil => simp
  | cons a l ih =>
    cases i with
    | zero =>
      simp only [List.modify_zero_cons, List.countP_cons]
      split
      · rename_i passes
        simp [keeps a rfl passes]
      · omega
    | succ i =>
      simp only [List.modify_succ_cons, List.countP_cons]
      have := ih (i := i) fun a at_ => keeps a (by simpa using at_)
      omega

theorem countP_modify_lt (at_ : l[i]? = some a) (before : p a = true) (after : p (f a) = false) :
    (l.modify i f).countP p + 1 = l.countP p := by
  induction l generalizing i with
  | nil => simp at at_
  | cons c l ih =>
    cases i with
    | zero =>
      obtain rfl : c = a := by simpa using at_
      simp [before, after]
    | succ i =>
      simp only [List.modify_succ_cons, List.countP_cons]
      have := ih (i := i) (by simpa using at_)
      omega

/-- What is found by its number goes with it. -/
theorem length_filter_lt {key : A → Nat} {k : Nat} (found : l.find? (key · = k) = some a) :
    (l.filter (key · ≠ k)).length + 1 ≤ l.length := by
  have fewer : (l.filter (key · ≠ k)).length < l.length := by
    refine List.length_filter_lt_length_iff_exists.mpr ⟨a, List.mem_of_find?_eq_some found, ?_⟩
    simpa using List.find?_some found
  omega

end lists

/-! ## Attempts -/

/-- The socket can still start another attempt. -/
def Socket.live (ws : Socket) : Bool := ws.listening && ws.readyState != .closed

/-- The attempts to have a connection: tickets that were asked for, sockets, and timeouts. -/
def Hook.attempts (h : Hook JobWsEvent) : Nat := h.calls.length + h.sockets.countP Socket.live + h.timers.length

@[simp] theorem live_close (ws : Socket) : ws.close.live = ws.live := by
  simp only [Socket.close, Socket.live]
  cases ws.readyState <;> rfl

theorem attempts_clearRetryTimer : h.clearRetryTimer.attempts ≤ h.attempts := by
  unfold clearRetryTimer
  split
  · rename_i id _
    have := List.length_filter_le (fun t : Timer => decide (t.id ≠ id)) h.timers
    simp only [attempts]
    omega
  · exact Nat.le_refl _

theorem attempts_closeSocket : h.closeSocket.attempts ≤ h.attempts := by
  unfold closeSocket
  split
  · rename_i i _
    have := countP_modify_le (p := Socket.live) (f := fun ws => { ws with listening := false }.close) (l := h.sockets)
      (i := i) fun ws _ live => by rw [live_close] at live; simp [Socket.live] at live
    simp only [attempts]
    omega
  · exact Nat.le_refl _

theorem attempts_connect : (h.connect b).attempts ≤ h.attempts + 1 := by
  unfold connect
  split
  · omega
  · have := attempts_closeSocket (h := h)
    simp only [attempts, List.length_append, List.length_singleton] at *
    omega

theorem attempts_scheduleReconnect : (h.scheduleReconnect b).attempts ≤ h.attempts + 1 := by
  unfold scheduleReconnect
  split
  · omega
  · have := attempts_clearRetryTimer (h := h)
    simp only [attempts, List.length_append, List.length_singleton] at *
    omega

theorem attempts_answered (ticket : Option String) (constructed : Bool) :
    (h.answered b ticket constructed).attempts ≤ h.attempts + 1 := by
  unfold answered
  split
  · exact attempts_scheduleReconnect
  · split
    · omega
    · split
      · simp [attempts, List.countP_append, Socket.live]
        omega
      · exact attempts_scheduleReconnect

theorem attempts_cleanup : h.cleanup.attempts ≤ h.attempts :=
  calc h.cleanup.attempts
      = ({ h with effect := none, mountedRef := false } : Hook JobWsEvent).clearRetryTimer.closeSocket.attempts := rfl
    _ ≤ ({ h with effect := none, mountedRef := false } : Hook JobWsEvent).clearRetryTimer.attempts := attempts_closeSocket
    _ ≤ ({ h with effect := none, mountedRef := false } : Hook JobWsEvent).attempts := attempts_clearRetryTimer
    _ = h.attempts := rfl

/-- An effect starts with the option set. -/
def begins (h : Hook JobWsEvent) : Event JobWsEvent → Nat
  | .effect true => if h.effect.isNone then 1 else 0
  | _ => 0

/-- What goes on makes one of the others at most. -/
theorem attempts_handle : (handle h e).attempts ≤ h.attempts + begins h e := by
  cases e with
  | effect enabled =>
    cases idle : h.effect.isNone with
    | true =>
      cases enabled with
      | false => simp [handle, begins, idle, runEffect, attempts]
      | true =>
        have : (({ h with effect := some true, mountedRef := true } : Hook JobWsEvent).connect true).attempts
            ≤ h.attempts + 1 := attempts_connect
        simpa [handle, begins, idle, runEffect] using this
    | false => simp [handle, idle]
  | cleanup =>
    simp only [handle, begins]
    split
    · exact attempts_cleanup
    · exact Nat.le_refl _
  | answer call ticket constructed =>
    simp only [handle, begins]
    split
    · rename_i c found
      have fewer := length_filter_lt found
      have := attempts_answered (h := { h with calls := h.calls.filter (·.id ≠ call) }) (b := c.enabled) ticket constructed
      simp only [attempts] at *
      omega
    · exact Nat.le_refl _
  | timeout timer =>
    simp only [handle, begins]
    split
    · rename_i t found
      have fewer := length_filter_lt found
      split
      · have := attempts_connect (h := { h with timers := h.timers.filter (·.id ≠ timer) }) (b := t.enabled)
        simp only [attempts] at *
        omega
      · simp only [attempts]
        omega
    · exact Nat.le_refl _
  | opened i =>
    simp only [handle, begins]
    split
    · rename_i ws at_
      split
      · rename_i connecting
        have opens := countP_modify_le (p := Socket.live) (f := fun ws : Socket => { ws with readyState := .opened })
          (l := h.sockets) (i := i) fun ws' same live => by
            obtain rfl := Option.some.inj (at_.symm.trans same)
            simpa [Socket.live, connecting] using live
        unfold onopen
        split
        · have closes := countP_modify_le (p := Socket.live) (f := Socket.close) (i := i)
            (l := h.sockets.modify i fun ws : Socket => { ws with readyState := .opened }) fun ws _ live => by
              simpa using live
          simp only [attempts]
          omega
        · simp only [attempts]
          omega
      · exact Nat.le_refl _
    · exact Nat.le_refl _
  | message i event =>
    have same : ∀ h : Hook JobWsEvent, (h.onmessage event).attempts = h.attempts := fun h => by
      unfold onmessage
      split
      · rfl
      · cases event <;> rfl
    simp only [handle, begins]
    split
    · split
      · exact Nat.le_of_eq (same h)
      · exact Nat.le_refl _
    · exact Nat.le_refl _
  | closed i =>
    simp only [handle, begins]
    split
    · rename_i ws at_
      split
      · exact Nat.le_refl _
      · rename_i unclosed
        split
        · rename_i listening
          have fewer := countP_modify_lt (f := fun ws : Socket => { ws with readyState := .closed }) at_
            (show ws.live = true by simp [Socket.live, listening, unclosed]) (by simp [Socket.live])
          unfold onclose
          split
          · simp only [attempts]
            omega
          · refine Nat.le_trans attempts_scheduleReconnect ?_
            simp only [attempts]
            omega
        · have := countP_modify_le (p := Socket.live) (f := fun ws : Socket => { ws with readyState := .closed })
            (l := h.sockets) (i := i) fun ws _ live => by simp [Socket.live] at live
          simp only [attempts]
          omega
    · exact Nat.le_refl _

/-- The effects with the option set that have started. -/
def started (h : Hook JobWsEvent) : List (Event JobWsEvent) → Nat
  | [] => 0
  | e :: es => begins h e + started (handle h e) es

theorem attempts_bounded (h : Hook JobWsEvent) (es : List (Event JobWsEvent)) :
    (es.foldl handle h).attempts ≤ h.attempts + started h es := by
  induction es generalizing h with
  | nil => exact Nat.le_refl _
  | cons e es ih =>
    calc (es.foldl handle (handle h e)).attempts
        ≤ (handle h e).attempts + started (handle h e) es := ih (handle h e)
      _ ≤ h.attempts + begins h e + started (handle h e) es := Nat.add_le_add_right attempts_handle _
      _ = h.attempts + started h (e :: es) := Nat.add_assoc ..

/-- A disabled hook with nothing left over stays that way. -/
theorem disabled_silent {es : List (Event JobWsEvent)} (idle : h.attempts = 0) (disabled : .effect true ∉ es) :
    (es.foldl handle h).attempts = 0 := by
  refine List.foldlRecOn (motive := fun h => h.attempts = 0) es handle idle fun h quiet e mem => ?_
  have none_begun : begins h e = 0 := by
    unfold begins
    split
    · exact absurd mem disabled
    · rfl
  have := attempts_handle (h := h) (e := e)
  omega

/-- An answer that comes after the option is cleared opens a socket. -/
example : ([.effect true, .cleanup, .effect false, .answer 0 (some "t") true, .opened 0].foldl handle
    ({} : Hook Nat)).connected = true := by decide

/-! ## Timeouts -/

/-- The `k`th delay after a connection. -/
def delay (k : Nat) : Nat := min (backoffInitialMs * backoffFactor ^ k) backoffMaxMs

theorem delay_succ (k : Nat) : min (delay k * backoffFactor) backoffMaxMs = delay (k + 1) := by
  have : 2 ^ (k + 1) = 2 ^ k * 2 := Nat.pow_succ ..
  simp only [delay, backoffInitialMs, backoffFactor, backoffMaxMs]
  omega

structure Tidy (h : Hook JobWsEvent) : Prop where
  timer : ∀ t ∈ h.timers, h.retryTimerRef = some t.id
  one : h.timers.length ≤ 1
  unmounted : h.mountedRef = false → h.timers = [] ∧ h.wsRef = none ∧ h.connected = false
  delays : h.delays = (List.range h.delays.length).map delay
  next : h.backoffRef = delay h.delays.length

theorem clearRetryTimer_eq (timer : ∀ t ∈ h.timers, h.retryTimerRef = some t.id) :
    h.clearRetryTimer = { h with timers := [], retryTimerRef := none } := by
  unfold clearRetryTimer
  split
  · rename_i id ref
    have none_left : h.timers.filter (·.id ≠ id) = [] := by
      refine List.filter_eq_nil_iff.mpr fun t mem => ?_
      obtain rfl := Option.some.inj (ref.symm.trans (timer t mem))
      simp
    rw [none_left]
  · rename_i ref
    have none_there : h.timers = [] := by
      refine List.eq_nil_iff_forall_not_mem.mpr fun t mem => ?_
      simpa [ref] using timer t mem
    rw [← none_there, ← ref]

theorem closeSocket_eq : h.closeSocket = { h with sockets := h.closeSocket.sockets, wsRef := none } := by
  unfold closeSocket
  split
  · rfl
  · rename_i ref
    rw [← ref]

theorem Tidy.connect (tidy : Tidy h) : Tidy (h.connect b) := by
  unfold Hook.connect
  split
  · exact tidy
  · rename_i goes
    rw [closeSocket_eq]
    refine ⟨tidy.timer, tidy.one, fun unmounted => ?_, tidy.delays, tidy.next⟩
    simp_all

theorem Tidy.scheduleReconnect (tidy : Tidy h) : Tidy (h.scheduleReconnect b) := by
  unfold Hook.scheduleReconnect
  split
  · exact tidy
  · rename_i mounted
    rw [clearRetryTimer_eq tidy.timer]
    refine ⟨by simp, by simp, fun unmounted => absurd unmounted (by simpa using mounted), ?_, ?_⟩
    · have := tidy.delays
      simp only [List.length_append, List.length_singleton, List.range_succ, List.map_append, List.map_cons, List.map_nil,
        tidy.next]
      rw [← this]
    · simp [tidy.next, delay_succ]

theorem Tidy.answered {ticket : Option String} {constructed : Bool} (tidy : Tidy h) :
    Tidy (h.answered b ticket constructed) := by
  unfold Hook.answered
  split
  · exact tidy.scheduleReconnect
  · split
    · exact tidy
    · rename_i mounted
      split
      · exact ⟨tidy.timer, tidy.one, fun unmounted => absurd unmounted (by simpa using mounted), tidy.delays, tidy.next⟩
      · exact tidy.scheduleReconnect

/-- Timeouts that are over, and what stands in the list of sockets, do not matter. -/
theorem Tidy.of_fewer {timers : List Timer} (tidy : Tidy h) (fewer : timers.Sublist h.timers) (calls : List TicketCall)
    (sockets : List Socket) : Tidy { h with timers, calls, sockets } where
  timer t mem := tidy.timer t (fewer.subset mem)
  one := Nat.le_trans fewer.length_le tidy.one
  unmounted unmounted := by
    obtain ⟨none_there, rest⟩ := tidy.unmounted unmounted
    exact ⟨List.sublist_nil.mp (none_there ▸ fewer), rest⟩
  delays := tidy.delays
  next := tidy.next

theorem Tidy.handle (tidy : Tidy h) : Tidy (handle h e) := by
  cases e with
  | effect enabled =>
    simp only [JobWebSocket.handle]
    split
    · have mounted : Tidy { h with effect := some enabled, mountedRef := true } :=
        ⟨tidy.timer, tidy.one, nofun, tidy.delays, tidy.next⟩
      unfold runEffect
      split
      · exact mounted.connect
      · exact mounted
    · exact tidy
  | cleanup =>
    simp only [JobWebSocket.handle]
    split
    · unfold cleanup
      rw [clearRetryTimer_eq (h := { h with effect := none, mountedRef := false }) tidy.timer, closeSocket_eq]
      exact ⟨by simp, by simp, fun _ => ⟨rfl, rfl, rfl⟩, tidy.delays, tidy.next⟩
    · exact tidy
  | answer call ticket constructed =>
    simp only [JobWebSocket.handle]
    split
    · exact (tidy.of_fewer (.refl _) _ _).answered
    · exact tidy
  | timeout timer =>
    simp only [JobWebSocket.handle]
    split
    · have fired := tidy.of_fewer (List.filter_sublist (p := (·.id ≠ timer))) h.calls h.sockets
      split
      · exact fired.connect
      · exact fired
    · exact tidy
  | opened i =>
    simp only [JobWebSocket.handle]
    split
    · split
      · unfold onopen
        split
        · exact tidy.of_fewer (.refl _) _ _
        · rename_i mounted
          exact ⟨tidy.timer, tidy.one, fun unmounted => absurd unmounted (by simpa using mounted), rfl, rfl⟩
      · exact tidy
    · exact tidy
  | message i event =>
    have told : Tidy (h.onmessage event) := by
      unfold onmessage
      split
      · exact tidy
      · cases event with
        | none => exact tidy
        | some event => exact ⟨tidy.timer, tidy.one, tidy.unmounted, tidy.delays, tidy.next⟩
    simp only [JobWebSocket.handle]
    split
    · split
      · exact told
      · exact tidy
    · exact tidy
  | closed i =>
    simp only [JobWebSocket.handle]
    split
    · split
      · exact tidy
      · have rest := tidy.of_fewer (.refl _) h.calls (h.sockets.modify i fun ws => { ws with readyState := .closed })
        split
        · unfold onclose
          split
          · exact rest
          · rename_i mounted
            refine Tidy.scheduleReconnect ⟨tidy.timer, tidy.one, fun unmounted => ?_, tidy.delays, tidy.next⟩
            exact absurd unmounted (by simpa using mounted)
        · exact rest
    · exact tidy

theorem retries_tidy (es : List (Event JobWsEvent)) : Tidy (es.foldl handle {}) :=
  List.foldlRecOn es handle ⟨by simp, by simp, nofun, rfl, rfl⟩ fun _ tidy _ _ => tidy.handle

/-! ## The first effect -/

/-- What the hook does while its first effect runs. -/
inductive Phase (h : Hook JobWsEvent) : Prop
  | asking (c : TicketCall) (calls : h.calls = [c]) (captured : c.enabled = true) (timers : h.timers = [])
      (wsRef : h.wsRef = none) (sockets : ∀ ws ∈ h.sockets, ws.readyState = .closed) (connected : h.connected = false)
  | waiting (t : Timer) (calls : h.calls = []) (timers : h.timers = [t]) (captured : t.enabled = true)
      (wsRef : h.wsRef = none) (sockets : ∀ ws ∈ h.sockets, ws.readyState = .closed) (connected : h.connected = false)
  | holding (i : Nat) (ws : Socket) (calls : h.calls = []) (timers : h.timers = []) (wsRef : h.wsRef = some i)
      (at_ : h.sockets[i]? = some ws) (captured : ws.enabled = true) (listening : ws.listening = true)
      (state : ws.readyState = .connecting ∧ h.connected = false ∨ ws.readyState = .opened ∧ h.connected = true)
      (others : ∀ j ≠ i, ∀ ws', h.sockets[j]? = some ws' → ws'.readyState = .closed)

structure Kept (h : Hook JobWsEvent) : Prop where
  effect : h.effect = some true
  mounted : h.mountedRef = true
  phase : Phase h

/-- What is found of a single one. -/
theorem find_one {A : Type} {key : A → Nat} {k : Nat} {a b : A} (found : [a].find? (key · = k) = some b) :
    key a = k ∧ b = a := by
  obtain rfl := List.mem_singleton.mp (List.mem_of_find?_eq_some found)
  exact ⟨by simpa using List.find?_some found, rfl⟩

/-- A socket that is not closed is the one the hook holds. -/
theorem Phase.held {i : Nat} {ws : Socket} (phase : Phase h) (at_ : h.sockets[i]? = some ws)
    (unclosed : ws.readyState ≠ .closed) :
    h.calls = [] ∧ h.timers = [] ∧ h.wsRef = some i ∧ ws.enabled = true ∧ ws.listening = true ∧
      (ws.readyState = .connecting ∧ h.connected = false ∨ ws.readyState = .opened ∧ h.connected = true) ∧
      ∀ j ≠ i, ∀ ws', h.sockets[j]? = some ws' → ws'.readyState = .closed := by
  cases phase with
  | asking c calls captured timers wsRef sockets => exact absurd (sockets ws (List.mem_of_getElem? at_)) unclosed
  | waiting t calls timers captured wsRef sockets => exact absurd (sockets ws (List.mem_of_getElem? at_)) unclosed
  | holding i' ws' calls timers wsRef there captured listening state others =>
    by_cases same : i = i'
    · subst same
      obtain rfl := Option.some.inj (there.symm.trans at_)
      exact ⟨calls, timers, wsRef, captured, listening, state, others⟩
    · exact absurd (others i same ws at_) unclosed

/-- The others are closed already. -/
theorem closed_of_modify {sockets : List Socket} {i : Nat}
    (others : ∀ j ≠ i, ∀ ws, sockets[j]? = some ws → ws.readyState = .closed) :
    ∀ ws ∈ sockets.modify i fun ws => { ws with readyState := .closed }, ws.readyState = .closed := by
  intro ws mem
  obtain ⟨j, at_⟩ := List.mem_iff_getElem?.mp mem
  by_cases same : j = i
  · subst same
    obtain ⟨before, -, rfl⟩ := Option.map_eq_some_iff.mp (List.getElem?_modify_eq .. ▸ at_)
    rfl
  · rw [List.getElem?_modify_ne _ _ (Ne.symm same)] at at_
    exact others j same ws at_

theorem Kept.scheduleReconnect (effect : h.effect = some true) (mounted : h.mountedRef = true) (calls : h.calls = [])
    (timers : h.timers = []) (wsRef : h.wsRef = none) (sockets : ∀ ws ∈ h.sockets, ws.readyState = .closed)
    (connected : h.connected = false) : Kept (h.scheduleReconnect true) := by
  unfold Hook.scheduleReconnect
  rw [if_neg (by simp [mounted]), clearRetryTimer_eq (by simp [timers])]
  exact ⟨effect, mounted, .waiting _ calls rfl rfl wsRef sockets connected⟩

theorem Kept.connect (effect : h.effect = some true) (mounted : h.mountedRef = true) (calls : h.calls = [])
    (timers : h.timers = []) (wsRef : h.wsRef = none) (sockets : ∀ ws ∈ h.sockets, ws.readyState = .closed)
    (connected : h.connected = false) : Kept (h.connect true) := by
  have open_ : h.closeSocket = h := by
    unfold closeSocket
    rw [wsRef]
  unfold Hook.connect
  rw [if_neg (by simp [mounted]), open_]
  exact ⟨effect, mounted, .asking ⟨h.made, true⟩ (by simp [calls]) rfl timers wsRef sockets connected⟩

/-- A new socket is the only one that is not closed. -/
theorem Kept.constructed {ticket : String} (effect : h.effect = some true) (mounted : h.mountedRef = true)
    (calls : h.calls = []) (timers : h.timers = []) (sockets : ∀ ws ∈ h.sockets, ws.readyState = .closed)
    (connected : h.connected = false) :
    Kept { h with sockets := h.sockets ++ [{ ticket, enabled := true }], wsRef := some h.sockets.length } := by
  refine ⟨effect, mounted, .holding h.sockets.length { ticket, enabled := true } calls timers rfl (by simp) rfl rfl
    (.inl ⟨rfl, connected⟩) fun j other ws at_ => ?_⟩
  rw [List.getElem?_append] at at_
  split at at_
  · exact sockets ws (List.mem_of_getElem? at_)
  · have beyond : [({ ticket, enabled := true } : Socket)].length ≤ j - h.sockets.length := by
      simp only [List.length_singleton]
      omega
    rw [List.getElem?_eq_none beyond] at at_
    cases at_

/-- Every step of the browser is followed by the next one of the hook. -/
theorem Kept.handle (kept : Kept h) (other : e ≠ .cleanup) : Kept (handle h e) := by
  obtain ⟨effect, mounted, phase⟩ := kept
  cases e with
  | cleanup => exact absurd rfl other
  | effect enabled => simpa [JobWebSocket.handle, effect] using ⟨effect, mounted, phase⟩
  | message i event =>
    have told : Kept (h.onmessage event) := by
      unfold onmessage
      rw [if_neg (by simp [mounted])]
      cases event with
      | none => exact ⟨effect, mounted, phase⟩
      | some event => exact ⟨effect, mounted, by cases phase with
          | asking c calls captured timers wsRef sockets connected =>
            exact .asking c calls captured timers wsRef sockets connected
          | waiting t calls timers captured wsRef sockets connected =>
            exact .waiting t calls timers captured wsRef sockets connected
          | holding i ws calls timers wsRef at_ captured listening state others =>
            exact .holding i ws calls timers wsRef at_ captured listening state others⟩
    simp only [JobWebSocket.handle]
    split
    · split
      · exact told
      · exact ⟨effect, mounted, phase⟩
    · exact ⟨effect, mounted, phase⟩
  | answer call ticket constructed =>
    simp only [JobWebSocket.handle]
    split
    · rename_i c' found
      cases phase with
      | asking c calls captured timers wsRef sockets connected =>
        obtain ⟨same, rfl⟩ := find_one (calls ▸ found)
        have done : h.calls.filter (·.id ≠ call) = [] := by simp [calls, same]
        rw [done, captured]
        unfold answered
        split
        · exact .scheduleReconnect effect mounted rfl timers wsRef sockets connected
        · split
          · exact absurd ‹_› (by simp [mounted])
          · split
            · exact .constructed (h := { h with calls := [] }) effect mounted rfl timers sockets connected
            · exact .scheduleReconnect effect mounted rfl timers wsRef sockets connected
      | waiting t calls => simp [calls] at found
      | holding i ws calls => simp [calls] at found
    · exact ⟨effect, mounted, phase⟩
  | timeout timer =>
    simp only [JobWebSocket.handle]
    split
    · rename_i t' found
      cases phase with
      | waiting t calls timers captured wsRef sockets connected =>
        obtain ⟨same, rfl⟩ := find_one (timers ▸ found)
        have done : h.timers.filter (·.id ≠ timer) = [] := by simp [timers, same]
        rw [done, captured, if_pos mounted]
        exact .connect effect mounted calls rfl wsRef sockets connected
      | asking c calls captured timers => simp [timers] at found
      | holding i ws calls timers => simp [timers] at found
    · exact ⟨effect, mounted, phase⟩
  | opened i =>
    simp only [JobWebSocket.handle]
    split
    · rename_i ws at_
      split
      · rename_i connecting
        obtain ⟨calls, timers, wsRef, captured, listening, -, others⟩ := phase.held at_ (by simp [connecting])
        unfold onopen
        rw [if_neg (by simp [mounted])]
        refine ⟨effect, mounted, .holding i { ws with readyState := .opened } calls timers wsRef (by simp [at_]) captured
          listening (.inr ⟨rfl, rfl⟩) fun j other ws' there => others j other ws' ?_⟩
        simpa [List.getElem?_modify_ne _ _ (Ne.symm other)] using there
      · exact ⟨effect, mounted, phase⟩
    · exact ⟨effect, mounted, phase⟩
  | closed i =>
    simp only [JobWebSocket.handle]
    split
    · rename_i ws at_
      split
      · exact ⟨effect, mounted, phase⟩
      · rename_i unclosed
        obtain ⟨calls, timers, -, captured, listening, -, others⟩ := phase.held at_ unclosed
        unfold onclose
        rw [if_pos listening, captured, if_neg (by simp [mounted])]
        exact .scheduleReconnect effect mounted calls timers rfl (closed_of_modify others) rfl
    · exact ⟨effect, mounted, phase⟩

theorem connection_kept {es : List (Event JobWsEvent)} (others : .cleanup ∉ es) :
    Kept ((.effect true :: es).foldl handle ({} : Hook JobWsEvent)) := by
  have start : Kept (handle ({} : Hook JobWsEvent) (.effect true)) :=
    ⟨rfl, rfl, .asking ⟨0, true⟩ rfl rfl rfl rfl (by simp [handle, runEffect, Hook.connect, closeSocket]) rfl⟩
  exact List.foldlRecOn es handle start fun h kept e mem => kept.handle fun ended => others (ended ▸ mem)

/-- A lost connection, a ticket that is refused, and a second connection. -/
theorem connection_kept_reconnects :
    Kept ([.effect true, .answer 0 (some "t1") true, .opened 0, .message 0 (some 7), .closed 0, .timeout 1,
      .answer 2 none true, .timeout 3, .answer 4 (some "t2") true, .opened 1].foldl handle ({} : Hook Nat)) :=
  connection_kept (by decide)

end PatchManager.JobWebSocket
