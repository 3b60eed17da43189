import PatchManager.Web.Tickets

/-! # WebSocket tickets

The handler looks a ticket up and removes it in two operations and does not ask whether the
removal found it.  Where it does, the ticket opens one connection; expiry is respected in
every case.

Main results:

* `tickets_single_use`: the law under that condition.
* `ticket_used_twice`: two requests look the same ticket up before either removes it.
-/

namespace PatchManager.Ws

open PatchManager.Conc

abbrev State := Sys World Op Op.Resp Fn
abbrev History := List (Event World Op Op.Resp Fn)

variable {allowedOrigins : List (List Char)} {s t : State} {h : History} {id : String}
  {ticket ticket' : WsTicket}

/-- The web process has just been started. -/
structure Initial (s : State) : Prop where
  tasks : s.tasks = []
  tickets : s.world.tickets = ∅

/-- The ticket has been issued under the identifier. -/
def Issued (h : History) (id : String) (ticket : WsTicket) : Prop :=
  ∃ e ∈ h, ∃ tid, e.label = .op tid (.insertTicket id ticket) ()

/-- Request `tid` has been accepted with the ticket. -/
def Accepted (h : History) (tid : Nat) (id : String) (ticket : WsTicket) : Prop :=
  ∃ e ∈ h, e.label = .op tid (.onUpgrade id ticket) ()

/-- A ticket opens at most one connection, and none once it has expired. -/
structure SingleUse (h : History) : Prop where
  once : ∀ h₁ e h₂ e' h₃ id tid tid' ticket ticket', h = h₁ ++ e :: (h₂ ++ e' :: h₃) →
    e.label = .op tid (.onUpgrade id ticket) () → e'.label ≠ .op tid' (.onUpgrade id ticket') ()
  issued : ∀ tid id ticket, Accepted h tid id ticket →
    Issued h id ticket ∧ ∀ ticket', Issued h id ticket' → ticket' = ticket
  /-- both when the request came in and when it read the clock -/
  unexpired : ∀ tid id ticket, Accepted h tid id ticket →
    (∀ e ∈ h, ∀ f, e.Starts tid f → e.pre.world.now ≤ ticket.expiresAt) ∧
      ∃ e ∈ h, e.label = .op tid .utcNow e.pre.world.now ∧ e.pre.world.now ≤ ticket.expiresAt

/-- What a request has exchanged when it has found its ticket valid. -/
def Validated (id : String) (l : List (Exchange Op Op.Resp)) : Prop :=
  ∃ ticket now, l = [⟨.getTicket id, some ticket⟩, ⟨.utcNow, now⟩] ∧ now ≤ ticket.expiresAt

/-- A request that has found its ticket valid removes it while it is still there. -/
def RemovesPresent (h : History) : Prop :=
  ∀ h₁ e h₂ tid id r, h = h₁ ++ e :: h₂ → e.label = .op tid (.removeTicket id) r →
    Validated id (exchanges tid h₁) → e.pre.world.tickets.lookup id ≠ none

/-! ## Programs -/

/-- What a request has exchanged before it issues a ticket or is accepted with one. -/
def shape : Fn → List (Exchange Op Op.Resp) → Op → Prop
  | .createTicketHandler _, l, .insertTicket id _ => ∃ now, l = [⟨.newUlid, id⟩, ⟨.utcNow, now⟩]
  | .wsHandler _ _, l, .onUpgrade id ticket =>
    ∃ now removed, l = [⟨.getTicket id, some ticket⟩, ⟨.utcNow, now⟩, ⟨.removeTicket id, removed⟩] ∧
      now ≤ ticket.expiresAt
  | .createTicketHandler _, _, .onUpgrade _ _ => False
  | .wsHandler _ _, _, .insertTicket _ _ => False
  | _, _, _ => True

/-- An operation that `shape` says nothing about. -/
def Op.plain : Op → Bool
  | .insertTicket _ _ | .onUpgrade _ _ => false
  | _ => true

theorem shape_of_plain {o : Op} (f : Fn) (l : List (Exchange Op Op.Resp)) (plain : o.plain = true) :
    shape f l o := by
  cases o <;> cases f <;> trivial

theorem body_shaped (f : Fn) :
    (body allowedOrigins f).Along (shaped shape) (fun _ _ => True) (.init f) := by
  have plain : ∀ (σ : Traced Op Op.Resp Fn) (o : Op), o.plain = true → (shaped shape).guar σ o :=
    fun σ o plain f _ => shape_of_plain f σ.done plain
  cases f with
  | createTicketHandler auth =>
    refine ⟨plain _ _ rfl, fun id _ => ⟨plain _ _ rfl, fun now _ => ⟨?_, fun _ _ => trivial⟩⟩⟩
    intro f root
    obtain rfl := Option.some.inj root
    exact ⟨now, rfl⟩
  | wsHandler headers id =>
    simp only [body, wsHandler]
    cases checkOrigin headers allowedOrigins with
    | error err => trivial
    | ok _ =>
      refine ⟨plain _ _ rfl, fun found _ => ?_⟩
      cases found with
      | none => trivial
      | some ticket =>
        refine ⟨plain _ _ rfl, fun now _ => ?_⟩
        by_cases expired : ticket.expiresAt < now
        · simp only [Prog.ret_bind, if_pos expired]
          exact ⟨plain _ _ rfl, fun _ _ => trivial⟩
        · simp only [Prog.ret_bind, if_neg expired]
          refine ⟨plain _ _ rfl, fun removed _ => ⟨?_, fun _ _ => trivial⟩⟩
          intro f root
          obtain rfl := Option.some.inj root
          exact ⟨now, removed, rfl, Int.not_lt.mp expired⟩

/-! ## Steps -/

/-- What one step does to the world. -/
inductive Moves (w : World) : Label Op Op.Resp Fn → World → Prop
  | generate {tid : Nat} {id : String} (new : id ∉ w.ulids) :
      Moves w (.op tid .newUlid id) { w with ulids := id :: w.ulids }
  | insert {tid : Nat} {id : String} {ticket : WsTicket} :
      Moves w (.op tid (.insertTicket id ticket) ()) { w with tickets := w.tickets.insert id ticket }
  | remove {tid : Nat} {id : String} :
      Moves w (.op tid (.removeTicket id) (w.tickets.lookup id))
        { w with tickets := w.tickets.erase id }
  | purge {id : String} : Moves w .drift { w with tickets := w.tickets.erase id }
  | tick {micros : Nat} : Moves w .drift { w with now := w.now + micros }
  | restart : Moves w .restart { w with tickets := ∅ }
  | idle {l : Label Op Op.Resp Fn} : Moves w l w

section steps

variable {l : Label Op Op.Resp Fn} {tid : Nat}

theorem moves_of_step (step : Step (tickets allowedOrigins).machine s l t) :
    Moves s.world l t.world := by
  rcases Service.world_cases step with ⟨tid, o, r, a, rfl, done⟩ | ⟨d, rfl, moved⟩ | ⟨rfl, moved⟩ |
      ⟨-, same⟩
  · change execute s.world o a = some (r, t.world) at done
    cases o with
    | newUlid =>
      simp only [execute, Option.ite_none_left_eq_some] at done
      obtain ⟨new, pair⟩ := done
      obtain ⟨rfl, moved⟩ := Prod.mk.inj (Option.some.inj pair)
      exact moved ▸ .generate new
    | insertTicket id ticket =>
      obtain ⟨-, moved⟩ := Prod.mk.inj (Option.some.inj done)
      exact moved ▸ .insert
    | removeTicket id =>
      obtain ⟨rfl, moved⟩ := Prod.mk.inj (Option.some.inj done)
      exact moved ▸ .remove
    | utcNow | getTicket | onUpgrade =>
      obtain ⟨-, same⟩ := Prod.mk.inj (Option.some.inj done)
      exact same ▸ .idle
  · change t.world = change s.world d at moved
    rw [moved]
    cases d with
    | tick micros => exact .tick
    | purge id =>
      simp only [change]
      split
      · exact .purge
      · exact .idle
  · rw [moved]
    exact .restart
  · rw [same]
    exact .idle

/-- A ticket in the map was there before or is issued by this step. -/
theorem stored_cases (step : Step (tickets allowedOrigins).machine s l t)
    (found : t.world.tickets.lookup id = some ticket) :
    s.world.tickets.lookup id = some ticket ∨ ∃ tid, l = .op tid (.insertTicket id ticket) () := by
  have erased : ∀ id', (s.world.tickets.erase id').lookup id = some ticket →
      s.world.tickets.lookup id = some ticket := by
    intro id' found
    by_cases same : id = id'
    · rw [same, AList.lookup_erase] at found
      cases found
    · rwa [AList.lookup_erase_ne same] at found
  have moves := moves_of_step step
  generalize t.world = w at moves found
  cases moves with
  | @insert tid id' =>
    by_cases same : id = id'
    · subst same
      rw [AList.lookup_insert] at found
      obtain rfl := Option.some.inj found
      exact .inr ⟨tid, rfl⟩
    · rw [AList.lookup_insert_ne same] at found
      exact .inl found
  | remove => exact .inl (erased _ found)
  | purge => exact .inl (erased _ found)
  | restart => cases found
  | _ => exact .inl found

theorem ulids_grow (step : Step (tickets allowedOrigins).machine s l t)
    (taken : id ∈ s.world.ulids) : id ∈ t.world.ulids := by
  have moves := moves_of_step step
  generalize t.world = w at moves
  cases moves with
  | generate => exact List.mem_cons_of_mem _ taken
  | _ => exact taken

theorem clock_grows (step : Step (tickets allowedOrigins).machine s l t) :
    s.world.now ≤ t.world.now := by
  have moves := moves_of_step step
  generalize t.world = w at moves
  cases moves with
  | tick => simp
  | _ => exact Int.le_refl _

/-- A removal leaves nothing under the identifier. -/
theorem removed {r : Option WsTicket}
    (step : Step (tickets allowedOrigins).machine s (.op tid (.removeTicket id) r) t) :
    t.world.tickets.lookup id = none := by
  obtain ⟨_, _, _, _, ⟨a, done⟩, rfl⟩ := step.op_inv
  obtain ⟨rfl, rfl⟩ := Prod.mk.inj (Option.some.inj done)
  exact AList.lookup_erase ..

end steps

/-! ## Runs -/

/-- The identifier an operation has been given. -/
def Op.given : (o : Op) → o.Resp → Option String
  | .newUlid, id => some id
  | _, _ => none

/-- The identifier an operation issues a ticket under. -/
def Op.issues : Op → Option String
  | .insertTicket id _ => some id
  | _ => none

theorem given_fresh {w w' : World} {o : Op} {r : o.Resp}
    (done : (tickets allowedOrigins).machine.exec w o r w') (given : o.given r = some id) :
    id ∉ w.ulids ∧ id ∈ w'.ulids := by
  obtain ⟨a, done⟩ := done
  cases o with
  | newUlid =>
    change execute w .newUlid a = some (r, w') at done
    simp only [execute, Option.ite_none_left_eq_some] at done
    obtain ⟨new, pair⟩ := done
    obtain ⟨rfl, rfl⟩ := Prod.mk.inj (Option.some.inj pair)
    obtain rfl := Option.some.inj given
    exact ⟨new, List.mem_cons_self⟩
  | _ => cases given

section runs

variable (run : Run (tickets allowedOrigins).machine s h t) (initial : Initial s)

include run initial

/-- An identifier is used for one ticket. -/
theorem insert_once {h₁ h₂ h₃ : History} {e e' : Event World Op Op.Resp Fn} {tid tid' : Nat}
    (split : h = h₁ ++ e :: (h₂ ++ e' :: h₃)) (label : e.label = .op tid (.insertTicket id ticket) ())
    (label' : e'.label = .op tid' (.insertTicket id ticket') ()) : False := by
  refine run.uses_once Op.given Op.issues (fun w id => id ∈ w.ulids)
    (fun _ _ _ _ _ done given => given_fresh done given) (fun _ _ _ _ step taken => ulids_grow step taken)
    ?_ split label label' rfl rfl
  intro h₁ e h₂ tid o r id eq label issues
  subst eq
  obtain ⟨task, -, shape_of⟩ := run.shaped initial.tasks body_shaped label
  cases o with
  | insertTicket id' ticket =>
    obtain rfl := Option.some.inj issues
    generalize task.root = f at shape_of
    cases f with
    | createTicketHandler auth =>
      obtain ⟨now, eq⟩ := shape_of
      simp [eq, Op.given, Op.issues]
    | wsHandler headers id => cases shape_of
  | _ => cases issues

/-- What is in the map has been issued. -/
theorem issued_of_lookup (found : t.world.tickets.lookup id = some ticket) : Issued h id ticket := by
  have absent : s.world.tickets.lookup id ≠ some ticket := by simp [initial.tickets]
  obtain ⟨h₁, e, h₂, rfl, before, after⟩ :=
    run.exists_change (P := fun s => s.world.tickets.lookup id = some ticket) absent found
  rcases stored_cases (run.split_event.2.1) after with old | ⟨tid, label⟩
  · exact absurd old before
  · exact ⟨e, by simp, tid, label⟩

theorem issued_unique (issued : Issued h id ticket) (issued' : Issued h id ticket') :
    ticket' = ticket := by
  obtain ⟨e, mem, tid, label⟩ := issued
  obtain ⟨e', mem', tid', label'⟩ := issued'
  obtain ⟨h₁, h₂, eq⟩ := List.append_of_mem mem
  obtain ⟨h₁', h₂', eq'⟩ := List.append_of_mem mem'
  rcases split_cases (eq.symm.trans eq') with ⟨-, rfl, -⟩ | ⟨m, later, -⟩ | ⟨m, later, -⟩
  · rw [label] at label'
    simp only [Label.op.injEq, Op.insertTicket.injEq] at label'
    exact label'.2.1.2.symm
  · exact (insert_once run initial (by rw [eq, later]) label label').elim
  · exact (insert_once run initial (by rw [eq', later]) label' label).elim

/-- What a request has done when it is accepted. -/
theorem accepted_exchanges {h₁ h₂ : History} {e : Event World Op Op.Resp Fn} {tid : Nat}
    (split : h = h₁ ++ e :: h₂) (label : e.label = .op tid (.onUpgrade id ticket) ()) :
    ∃ now removed, now ≤ ticket.expiresAt ∧ exchanges tid h₁ =
      [⟨.getTicket id, some ticket⟩, ⟨.utcNow, now⟩, ⟨.removeTicket id, removed⟩] := by
  subst split
  obtain ⟨task, -, shape_of⟩ := run.shaped initial.tasks body_shaped label
  generalize task.root = f at shape_of
  cases f with
  | createTicketHandler auth => cases shape_of
  | wsHandler headers id' =>
    obtain ⟨now, removed, eq, unexpired⟩ := shape_of
    exact ⟨now, removed, unexpired, eq⟩

/-- A request removes its ticket before it is accepted, having found it valid. -/
theorem removal_of_accepted {h₁ h₂ : History} {e : Event World Op Op.Resp Fn} {tid : Nat}
    (split : h = h₁ ++ e :: h₂) (label : e.label = .op tid (.onUpgrade id ticket) ()) :
    ∃ l₁ x l₂ removed, h₁ = l₁ ++ x :: l₂ ∧ x.label = .op tid (.removeTicket id) removed ∧
      Validated id (exchanges tid l₁) := by
  obtain ⟨now, removed, unexpired, eq⟩ := accepted_exchanges run initial split label
  have last : exchanges tid h₁ = [⟨.getTicket id, some ticket⟩, ⟨.utcNow, now⟩] ++
      ⟨Op.removeTicket id, removed⟩ :: [] := eq
  obtain ⟨l₁, x, l₂, eq, before, label⟩ := exchanges_split last
  exact ⟨l₁, x, l₂, removed, eq, label, ticket, now, before, unexpired⟩

/-- Where removals find the ticket there is one of each ticket. -/
theorem removed_once (present : RemovesPresent h) {h₁ h₂ h₃ : History}
    {e e' : Event World Op Op.Resp Fn} {tid tid' : Nat} {r r' : Option WsTicket}
    (split : h = h₁ ++ e :: (h₂ ++ e' :: h₃)) (label : e.label = .op tid (.removeTicket id) r)
    (label' : e'.label = .op tid' (.removeTicket id) r') (valid : Validated id (exchanges tid h₁))
    (valid' : Validated id (exchanges tid' (h₁ ++ e :: h₂))) : False := by
  have found := present _ _ _ _ _ _ split label valid
  have found' := present (h₁ ++ e :: h₂) e' h₃ _ _ _ (by simp [split]) label' valid'
  subst split
  obtain ⟨-, step, -⟩ := run.split_event
  rw [label] at step
  refine run.taken_once (P := fun s => s.world.tickets.lookup id ≠ none)
    (Q := fun l => ∃ tid ticket, l = .op tid (.insertTicket id ticket) ())
    (by simp [initial.tickets]) ?_ ?_ found (by simp [removed step]) found'
  · intro a mem absent present
    obtain ⟨ticket, found⟩ := Option.ne_none_iff_exists'.mp present
    rcases stored_cases (run.step_of_mem mem) found with old | ⟨tid, new⟩
    · simp [old] at absent
    · exact ⟨tid, ticket, new⟩
  · rintro l₁ a l₂ b l₃ eq ⟨_, _, label⟩ ⟨_, _, label'⟩
    exact insert_once run initial eq label label'

/-- A request is accepted once. -/
theorem accepted_once {h₁ h₂ h₃ : History} {e e' : Event World Op Op.Resp Fn} {tid : Nat}
    (split : h = h₁ ++ e :: (h₂ ++ e' :: h₃)) (label : e.label = .op tid (.onUpgrade id ticket) ()) :
    e'.label ≠ .op tid (.onUpgrade id ticket') () := by
  intro label'
  have whole : h = (h₁ ++ e :: h₂) ++ e' :: h₃ := by simp [split]
  obtain ⟨now, removed, -, eq⟩ := accepted_exchanges run initial whole label'
  have mem := mem_exchanges (h := h₁ ++ e :: h₂) (by simp) label
  simp [eq] at mem

/-- Under the condition on removals, tickets are single use. -/
theorem tickets_single_use (present : RemovesPresent h) : SingleUse h := by
  refine ⟨?once, ?issued, ?unexpired⟩
  case once =>
    intro h₁ e h₂ e' h₃ id tid tid' ticket ticket' split label label'
    by_cases same : tid = tid'
    · subst same
      exact accepted_once run initial split label label'
    · have whole : h = (h₁ ++ e :: h₂) ++ e' :: h₃ := by simp [split]
      obtain ⟨l₁, x, l₂, r, rfl, label_x, valid⟩ := removal_of_accepted run initial split label
      obtain ⟨l₁', x', l₂', r', eq', label_x', valid'⟩ := removal_of_accepted run initial whole label'
      have first : h = l₁ ++ x :: (l₂ ++ e :: (h₂ ++ e' :: h₃)) := by simp [split]
      have second : h = l₁' ++ x' :: (l₂' ++ e' :: h₃) := by rw [whole, eq']; simp
      rcases split_cases (first.symm.trans second) with ⟨-, rfl, -⟩ | ⟨m, later, before⟩ |
          ⟨m, later, before⟩
      · rw [label_x] at label_x'
        simp only [Label.op.injEq] at label_x'
        exact same label_x'.1
      · subst before
        exact removed_once run initial present (by rw [first, later]) label_x label_x' valid valid'
      · subst before
        exact removed_once run initial present (by rw [second, later]) label_x' label_x valid' valid
  case issued =>
    intro tid id ticket ⟨e, mem, label⟩
    obtain ⟨h₁, h₂, split⟩ := List.append_of_mem mem
    obtain ⟨now, removed, -, eq⟩ := accepted_exchanges run initial split label
    have first : exchanges tid h₁ = [] ++ ⟨Op.getTicket id, some ticket⟩ ::
      [⟨.utcNow, now⟩, ⟨.removeTicket id, removed⟩] := eq
    obtain ⟨l₁, x, l₂, rfl, -, label⟩ := exchanges_split first
    have whole : h = l₁ ++ x :: (l₂ ++ e :: h₂) := by simp [split]
    subst whole
    obtain ⟨before, step, -⟩ := run.split_event
    rw [label] at step
    have found : x.pre.world.tickets.lookup id = some ticket := by
      obtain ⟨_, _, _, -, ⟨a, done⟩, -⟩ := step.op_inv
      exact (Prod.mk.inj (Option.some.inj done)).1
    obtain ⟨y, mem, tid, label⟩ := issued_of_lookup before initial found
    have issued : Issued (l₁ ++ x :: (l₂ ++ e :: h₂)) id ticket := ⟨y, by simp [mem], tid, label⟩
    exact ⟨issued, fun _ issued' => issued_unique run initial issued issued'⟩
  case unexpired =>
    intro tid id ticket ⟨e, mem, label⟩
    obtain ⟨h₁, h₂, split⟩ := List.append_of_mem mem
    obtain ⟨now, removed, unexpired, eq⟩ := accepted_exchanges run initial split label
    have second : exchanges tid h₁ = [⟨Op.getTicket id, some ticket⟩] ++ ⟨Op.utcNow, now⟩ ::
      [⟨.removeTicket id, removed⟩] := eq
    obtain ⟨l₁, x, l₂, rfl, -, read⟩ := exchanges_split second
    have mem : x ∈ h := by simp [split]
    have step := run.step_of_mem mem
    rw [read] at step
    have clock : x.pre.world.now = now := by
      obtain ⟨_, _, _, -, ⟨a, done⟩, -⟩ := step.op_inv
      exact (Prod.mk.inj (Option.some.inj done)).1
    subst clock
    refine ⟨fun e' mem' f starts => ?_, x, mem, read, unexpired⟩
    obtain ⟨m₁, m₂, m₃, eq⟩ := run.starts_before mem' starts mem read
    subst eq
    obtain ⟨-, begun, rest⟩ := run.split_event
    obtain ⟨between, -⟩ := rest.split_event
    refine Int.le_trans ?_ unexpired
    exact (between.cons begun).preserves (I := fun s => e'.pre.world.now ≤ s.world.now)
      (fun _ _ step before => Int.le_trans before (clock_grows step)) (Int.le_refl _)

end runs

namespace Small

def origins : List (List Char) := ["https://pm".toList]

def headers : HeaderMap := [("origin", [104, 116, 116, 112, 115, 58, 47, 47, 112, 109])]

def user : AuthUser := ⟨1, "operator", .operator⟩

def start : State := ⟨{ now := 0 }, []⟩

abbrev player : Player (tickets origins).machine := (tickets origins).player

/-- The ticket "t" is issued. -/
def issue : List (Move player) :=
  [.call (.createTicketHandler user), .run 0 "t", .run 0 "", .run 0 ""]

/-- Two requests present the ticket one after the other. -/
def inTurn : List (Move player) :=
  issue ++ [.call (.wsHandler headers "t"), .call (.wsHandler headers "t"), .run 1 "", .run 1 "",
    .run 1 "", .run 1 "", .run 2 ""]

/-- Both look the ticket up before either removes it. -/
def overlapping : List (Move player) :=
  issue ++ [.call (.wsHandler headers "t"), .call (.wsHandler headers "t"), .run 1 "", .run 2 "",
    .run 1 "", .run 2 "", .run 1 "", .run 2 "", .run 1 "", .run 2 ""]

/-- The step is a removal that finds no ticket. -/
def removesAbsent (e : Event World Op Op.Resp Fn) : Bool :=
  match e.label with
  | .op _ (.removeTicket id) _ => (e.pre.world.tickets.lookup id).isNone
  | _ => false

/-- The step accepts request `tid`, which has presented the ticket "t". -/
def accepts (tid : Nat) (e : Event World Op Op.Resp Fn) : Bool :=
  match e.label with
  | .op other (.onUpgrade id _) _ => other == tid && id == "t"
  | _ => false

theorem label_of_accepts {tid : Nat} {e : Event World Op Op.Resp Fn} (accepts : accepts tid e = true) :
    ∃ ticket, e.label = .op tid (.onUpgrade "t" ticket) () := by
  obtain ⟨pre, label, post⟩ := e
  cases label with
  | op other o r =>
    cases o with
    | onUpgrade id ticket =>
      simp only [Small.accepts, Bool.and_eq_true, beq_iff_eq] at accepts
      obtain ⟨rfl, rfl⟩ := accepts
      exact ⟨ticket, rfl⟩
    | _ => cases accepts
  | _ => cases accepts

end Small

theorem tickets_single_use_inTurn : SingleUse (Small.player.history Small.start Small.inTurn) := by
  have plays : (Small.player.play Small.start Small.inTurn).isSome = true := by decide +kernel
  have present : (Small.player.history Small.start Small.inTurn).all
      (fun e => !Small.removesAbsent e) = true := by decide +kernel
  refine tickets_single_use (Small.player.run_of_play plays) ⟨rfl, rfl⟩ ?_
  intro h₁ e h₂ tid id r split label _ absent
  have test := List.all_eq_true.mp present e (by simp [split])
  simp [Small.removesAbsent, label, absent] at test

/-- Requests that overlap are both accepted. -/
theorem ticket_used_twice : ¬ ∀ (allowedOrigins : List (List Char)) (s t : State) (h : History),
    Initial s → Run (tickets allowedOrigins).machine s h t → SingleUse h := by
  intro all
  have plays : (Small.player.play Small.start Small.overlapping).isSome = true := by decide +kernel
  have once := (all _ _ _ _ ⟨rfl, rfl⟩ (Small.player.run_of_play plays)).once
  obtain ⟨e, at_e, first⟩ := (Option.any_eq_true _ _).mp (show
    ((Small.player.history Small.start Small.overlapping)[12]?).any (Small.accepts 1) = true by
      decide +kernel)
  obtain ⟨f, at_f, second⟩ := (Option.any_eq_true _ _).mp (show
    ((Small.player.history Small.start Small.overlapping)[13]?).any (Small.accepts 2) = true by
      decide +kernel)
  obtain ⟨ticket, label⟩ := Small.label_of_accepts first
  obtain ⟨ticket', label'⟩ := Small.label_of_accepts second
  exact once _ e _ f _ "t" 1 2 ticket ticket' (exists_split_of_getElem? at_e at_f (by decide)) label label'

end PatchManager.Ws
