import PatchManager.Conc.Credit
import PatchManager.Verified.RelayEnds
import PatchManager.Verified.RelaySource

/-! # One relay for each pair

`run_ws_relay` starts a relay for a pair that is not in its set of active pairs, and puts it
there.  A relay takes its pair out again as the last thing it does, whichever way it ends.

Main results:

* `activeInsert_fresh`: a pair is put into the set only when it is not there.
* `relay_unique`: a pair has at most one relay that is not over.
-/

namespace PatchManager

open PatchManager.Conc

variable {cfg : WorkerConfig} {s t : State} {h h₁ h₂ : List (Event World Op Op.Resp Fn)}
  {e : Event World Op Op.Resp Fn} {l : Label Op Op.Resp Fn} {tid : Nat} {row : RunningHostJob}
  {key : Uuid × Uuid} {p : Proc Unit}

def RunningHostJob.pair (row : RunningHostJob) : Uuid × Uuid := (row.jobId, row.hostId)

/-! ## What a tick has asked -/

/-- The tick has just found the pair free, and could read its certificates. -/
def FoundFree (done : Exchanges) (key : Uuid × Uuid) : Prop :=
  ∃ l, done = l ++ [⟨.activeContains key, false⟩, ⟨.buildTlsConfig, .ok ()⟩, ⟨.readCertPems, .ok ()⟩]

/-- Ticks put pairs into the set that they have found free, and nothing else does. -/
def claimContract : Contract Op Op.Resp Fn :=
  tracing (fun _ _ => True)
    (fun σ o => ∀ key, o = .activeInsert key → σ.root = some .relayTick ∧ FoundFree σ.done key)
    (fun _ _ => True) fun _ f => f ≠ .relayTick

theorem follows_claimsNone : Follows
    (fun {_} p => ∀ σ, p.Along claimContract (fun _ _ => True) σ) (fun k => decide (k ≠ .takePair))
    (fun _ => True) fun f => f ≠ .relayTick where
  toClosed := closed_along
    (fun σ o kind key eq => by subst eq; exact absurd rfl (of_decide_eq_true kind))
    (fun _ _ _ => trivial) fun _ _ => id
  other := rfl
  read := rfl

theorem startRelays_claims {rows : List RunningHostJob} {σ : Traced Op Op.Resp Fn}
    (tick : σ.root = some .relayTick) : (startRelays rows).Along claimContract (fun _ _ => True) σ := by
  induction rows generalizing σ with
  | nil => trivial
  | cons row rest ih =>
    refine ⟨nofun, fun active _ => ?_⟩
    cases active with
    | true => exact ih tick
    | false =>
      refine ⟨nofun, fun answer _ => ?_⟩
      cases answer with
      | error reason => exact ih tick
      | ok =>
        refine ⟨nofun, fun answer _ => ?_⟩
        cases answer with
        | error reason => exact ih tick
        | ok =>
          refine ⟨?_, fun _ _ => ⟨trivial, ih tick⟩⟩
          rintro key ⟨⟩
          exact ⟨tick, σ.done, by simp [claimContract, tracing, Traced.next]⟩

theorem body_claims {f : Fn} (noTick : f ≠ .relayTick) (σ : Traced Op Op.Resp Fn) :
    (body cfg f).Along claimContract (fun _ _ => True) σ := by
  have C := follows_claimsNone
  have records := fun row event => processEvent_follows C
    (fun dbStatus _ => relayUpdate_follows C rfl row event dbStatus)
    (updateParentJobStatus_follows C rfl rfl row.jobId)
  cases relay : f.isRelay with
  | false =>
    refine outside_follows C (fun k take _ => decide_eq_true take) (fun _ _ _ _ => trivial)
      (fun g noTick _ _ => ?_) cfg relay σ
    rintro rfl
    cases noTick
  | true =>
    cases f with
    | relayTick => exact absurd rfl noTick
    | relayOneJob row => exact relayOneJob_follows C rfl nofun (fun _ _ => nofun) σ
    | relayStream row => exact relayStream_follows C rfl rfl (records row) nofun σ
    | relayPoll row client lastStatus =>
      exact relayPoll_follows C rfl rfl rfl (records row) (fun _ _ => nofun) cfg client lastStatus σ
    | _ => cases relay

theorem engine_claims : (engine cfg).Keeps claimContract where
  starts σ f _ := by
    by_cases tick : f = .relayTick
    · subst tick
      refine ⟨nofun, fun answer _ => ?_⟩
      cases answer with
      | error reason => trivial
      | ok rows => exact startRelays_claims rfl
    · exact body_claims tick _
  tails σ f noTick := body_claims noTick σ
  idle := trivial

/-- A pair that is put into the set has been found free by the tick that puts it there. -/
theorem foundFree {answer : Unit} (run : Run (engine cfg) s (h₁ ++ e :: h₂) t) (initial : Initial s)
    (label : e.label = .op tid (.activeInsert key) answer) :
    (∃ task, e.pre.tasks[tid]? = some task ∧ task.root = .relayTick) ∧ FoundFree (exchanges tid h₁) key := by
  obtain ⟨before, step, -⟩ := run.split_event
  have relies : ∀ e' ∈ h₁ ++ e :: h₂, claimContract.Relies e'.label := fun e' _ => by
    cases e'.label <;> trivial
  have permitted :=
    (run.guarantees engine_claims relies (Sys.along_of_empty initial.tasks)).2 h₁ e h₂ rfl
  rw [label] at permitted step
  obtain ⟨root, next, w, at_, -⟩ := step.op_inv
  have ghost : (engine cfg).ghost claimContract h₁ tid = ⟨some root, exchanges tid h₁⟩ :=
    before.traced initial.tasks at_ (by simp)
  have found := permitted key rfl
  rw [ghost] at found
  exact ⟨⟨_, at_, Option.some.inj found.1⟩, found.2⟩

/-- Outside the operations only a restart changes the set. -/
theorem step_active (step : Step (engine cfg) s l t) (noOp : ∀ tid o answer, l ≠ .op tid o answer)
    (stays : l ≠ .restart) : t.world.active = s.world.active := by
  cases step with
  | op => exact absurd rfl (noOp _ _ _)
  | @enter f w called => cases f <;> exact (congrArg World.active called.2 :)
  | drift moved => exact moved.active
  | restart => exact absurd rfl stays
  | _ => rfl

/-- A pair that has come into the set has been put there by the step. -/
theorem activeInsert_of_step (step : Step (engine cfg) s l t) (absent : key ∉ s.world.active)
    (there : key ∈ t.world.active) : ∃ tid, l = .op tid (.activeInsert key) () := by
  by_cases noOp : ∀ tid o answer, l ≠ .op tid o answer
  · by_cases restart : l = .restart
    · subst restart
      cases step
      cases there
    · rw [step_active step noOp restart] at there
      exact absurd there absent
  · simp only [not_forall, not_not] at noOp
    obtain ⟨tid, o, answer, rfl⟩ := noOp
    obtain ⟨root, next, w, -, done, rfl⟩ := step.op_inv
    rcases exec_active done with same | ⟨other, rfl, new⟩ | ⟨other, -, gone⟩
    · rw [same] at there
      exact absurd there absent
    · rw [new] at there
      rcases List.mem_insert_iff.mp there with rfl | old
      · exact ⟨tid, rfl⟩
      · exact absurd old absent
    · rw [gone] at there
      exact absurd (List.mem_of_mem_erase there) absent

/-- A pair is put into the set only when it is not there: since the tick has asked for it, no other
    tick has gone on. -/
theorem activeInsert_fresh {answer : Unit} (run : Run (engine cfg) s (h₁ ++ e :: h₂) t)
    (initial : Initial s) (label : e.label = .op tid (.activeInsert key) answer) :
    key ∉ e.pre.world.active := by
  obtain ⟨⟨task, at_, root⟩, l, done⟩ := foundFree run initial label
  obtain ⟨before, check, since, rfl, -, asks, last⟩ := exchanges_part done
  have part : Run (engine cfg) s (before ++ check :: (since ++ e :: h₂)) t := by simpa using run
  obtain ⟨-, step, rest⟩ := part.split_event
  have free : key ∉ check.post.world.active := by
    rw [asks] at step
    obtain ⟨_, _, w, -, found, post⟩ := step.op_inv
    obtain ⟨absent, rfl⟩ : false = check.pre.world.active.contains key ∧ w = check.pre.world := found
    rw [post]
    simpa using absent.symm
  intro there
  obtain ⟨k₁, x, k₂, rfl, absent, came⟩ := rest.split_event.1.exists_change
    (P := fun s => key ∈ s.world.active) free there
  have whole : Run (engine cfg) s (before ++ check :: k₁ ++ x :: (k₂ ++ e :: h₂)) t := by simpa using run
  obtain ⟨tid', claims⟩ := activeInsert_of_step whole.split_event.2.1 absent came
  obtain ⟨⟨task', at_', root'⟩, -⟩ := foundFree whole initial claims
  have same : tid' = tid :=
    whole.op_between initial.tasks (ticks_turn .relayTick) claims at_' (by rw [root']; rfl)
      (x := check) (y := e) (by simp) asks (by simp) label at_ (by rw [root]; rfl)
  -- the tick itself has done nothing since but read its certificates
  subst same
  have claimed := mem_exchanges (h := k₁ ++ x :: k₂) (by simp) claims
  rw [last] at claimed
  simp at claimed

/-! ## The right to relay -/

/-- The right to relay for the pair is earned by putting it into the set, goes to the relay that is
    started, and is given up by taking the pair out. -/
def pairCredits (key : Uuid × Uuid) : Credits Op Op.Resp Fn where
  earns o _ :=
    match o with
    | .activeInsert other => (other == key).toNat
    | _ => 0
  costs o :=
    match o with
    | .activeRemove other => (other == key).toNat
    | _ => 0
  grant f := (f.relays?.any fun row => row.pair == key).toNat

/-- Not an operation that changes the set. -/
def OpKind.leavesSet : OpKind → Bool
  | .takePair | .freePair => false
  | _ => true

theorem free_of_leavesSet {o : Op} (leaves : o.kind.leavesSet = true) : (pairCredits key).Free o := by
  cases o <;> first | exact ⟨rfl, fun _ => rfl⟩ | cases leaves

theorem grant_outside {f : Fn} (noRelay : f.isRelay = false) : (pairCredits key).grant f = 0 := by
  simp [pairCredits, relays_of_isRelay noRelay]

/-- What is left of a relay that is not over: whatever comes, it takes its pair out of the set at the
    end or goes on as one of its loops. -/
def Owes (row : RunningHostJob) : Proc Unit → Prop
  | .ret _ => False
  | .op o next =>
    (o = .activeRemove row.pair ∧ ∀ r, next r = .ret ()) ∨ (o.kind.leavesSet = true ∧ ∀ r, Owes row (next r))
  | .spawn _ _ => False
  | .jump f => f.relays? = some row

namespace Owes

theorem endRelay (row : RunningHostJob) : Owes row (endRelay row) := .inl ⟨rfl, fun _ => rfl⟩

theorem op {o : Op} {next : o.Resp → Proc Unit} (leaves : o.kind.leavesSet = true)
    (rest : ∀ r, Owes row (next r)) : Owes row (.op o next) := .inr ⟨leaves, rest⟩

theorem bind {α : Type} {q : Proc α} {rest : α → Proc Unit}
    (within : q.Within (fun o => o.kind.leavesSet = true) (fun _ => False) fun _ => False)
    (owes : ∀ a, Owes row (rest a)) : Owes row (q.bind rest) := by
  induction q with
  | ret value => exact owes value
  | op o next ih => exact .op within.1 fun r => ih r (within.2 r)
  | spawn f next => exact within.1.elim
  | jump f => exact within.elim

/-- A relay holds the right to relay for its own pair. -/
theorem balanced (owes : Owes row p) : p.Balanced (pairCredits key) (row.pair == key).toNat := by
  induction p with
  | ret value => exact owes.elim
  | op o next ih =>
    rcases owes with ⟨rfl, last⟩ | ⟨leaves, rest⟩
    · exact .pay rfl (fun _ => rfl) fun r => by rw [last r]; rfl
    · exact .free (free_of_leavesSet leaves) fun r => ih r (rest r)
  | spawn f next => exact owes.elim
  | jump f =>
    have own : f.relays? = some row := owes
    simp [Prog.Balanced, pairCredits, own]

theorem holds {n : Nat} (owes : Owes row p) (balanced : p.Balanced (pairCredits row.pair) n) : 0 < n := by
  induction p with
  | ret value => exact owes.elim
  | op o next ih =>
    rcases owes with ⟨rfl, -⟩ | ⟨leaves, rest⟩
    · have cost : (pairCredits row.pair).costs (.activeRemove row.pair) = 1 := by simp [pairCredits]
      have paid := balanced.1
      omega
    · have free : (pairCredits row.pair).Free o := free_of_leavesSet leaves
      obtain ⟨costs, earns⟩ := free
      have later := balanced.2 (unanswered 0 o)
      rw [costs, earns] at later
      exact ih _ (rest _) later
  | spawn f next => exact owes.elim
  | jump f =>
    have own : f.relays? = some row := owes
    have granted : n = (pairCredits row.pair).grant f := balanced
    simp [granted, pairCredits, own]

end Owes

theorem follows_leavesSet : Follows
    (fun {_} p => p.Within (fun o => o.kind.leavesSet = true) (fun _ => False) fun _ => False)
    OpKind.leavesSet (fun _ => False) fun _ => False where
  toClosed := closed_within _ _ _
  other := rfl
  read := rfl

theorem owes_relay {f : Fn} (own : f.relays? = some row) : Owes row (body cfg f) := by
  have records := fun event => processEvent_follows follows_leavesSet
    (fun dbStatus _ => relayUpdate_follows follows_leavesSet rfl row event dbStatus)
    (updateParentJobStatus_follows follows_leavesSet rfl rfl row.jobId)
  cases f with
  | relayOneJob =>
    cases own
    refine .op rfl fun answer => ?_
    cases answer with
    | ok => exact rfl
    | error reason =>
      refine .op rfl fun answer => ?_
      cases answer with
      | error e => exact .endRelay row
      | ok => exact rfl
  | relayStream =>
    cases own
    refine .op rfl fun answer => ?_
    match answer with
    | none => exact .endRelay row
    | some (.error _) => exact .endRelay row
    | some .close => exact .endRelay row
    | some .other => exact rfl
    | some (.message none) => exact rfl
    | some (.message (some event)) =>
      change Owes row ((processEvent row event).bind fun _ =>
        if stopsRelay event.status then endRelay row else .jump (.relayStream row))
      exact .bind (records event) fun _ => iteInduction (fun _ => .endRelay row) fun _ => rfl
  | relayPoll _ client lastStatus =>
    cases own
    refine .op rfl fun _ => .op rfl fun answer => ?_
    cases answer with
    | error e => exact rfl
    | ok status =>
      exact iteInduction (fun _ => rfl) fun _ => .bind (records _) fun _ =>
        iteInduction (fun _ => .endRelay row) fun _ => rfl
  | _ => cases own

/-! ## The account -/

/-- Holds no right to relay for the pair, at its start or its end. -/
abbrev HoldsNoPair (key : Uuid × Uuid) {α : Type} (p : Proc α) : Prop := p.Balanced (pairCredits key) 0

theorem follows_holdsNoPair : Follows (fun {_} p => HoldsNoPair key p) OpKind.leavesSet
    (fun f => (pairCredits key).grant f = 0) fun f => (pairCredits key).grant f = 0 where
  toClosed := (Prog.closed_balanced (pairCredits key)).mono (fun _ => free_of_leavesSet) (fun _ => id) fun _ => id
  other := rfl
  read := rfl

/-- A tick passes the right to each relay it starts. -/
theorem startRelays_holdsNoPair (rows : List RunningHostJob) : HoldsNoPair key (startRelays rows) := by
  have C : Follows (fun {_} p => HoldsNoPair key p) OpKind.leavesSet
    (fun f => (pairCredits key).grant f = 0) (fun f => (pairCredits key).grant f = 0) := follows_holdsNoPair
  induction rows with
  | nil => exact C.ret _
  | cons row rest ih =>
    refine C.op rfl fun active => iteInduction (fun _ => ih) fun _ => C.op rfl fun answer => ?_
    cases answer with
    | error reason => exact ih
    | ok =>
      refine C.op rfl fun answer => ?_
      cases answer with
      | error reason => exact ih
      | ok => exact .earn rfl fun _ => .pass (by simp [pairCredits, Fn.relays?, RunningHostJob.pair]) ih

theorem relayTick_holdsNoPair : HoldsNoPair key relayTick := by
  have C : Follows (fun {_} p => HoldsNoPair key p) OpKind.leavesSet
    (fun f => (pairCredits key).grant f = 0) (fun f => (pairCredits key).grant f = 0) := follows_holdsNoPair
  refine C.op rfl fun answer => ?_
  cases answer with
  | error reason => exact C.ret _
  | ok rows => exact startRelays_holdsNoPair rows

theorem request_leavesSet {f : Fn} (isRequest : f.isRequest = true) :
    (body cfg f).Within (pairCredits key).Free (fun f => (pairCredits key).grant f = 0) fun _ => False :=
  (request_follows follows_leavesSet (fun k routine _ => by cases k <;> first | rfl | cases routine)
    (cancelJob_follows follows_leavesSet rfl (cancelRows_follows follows_leavesSet rfl rfl)) cfg isRequest).mono
    (fun _ => free_of_leavesSet) (fun _ none => none.elim) fun _ => id

theorem engine_passes_pairs : (engine cfg).Solvent (pairCredits key) where
  balanced f := by
    cases relay : f.isRelay with
    | false =>
      rw [grant_outside relay]
      exact outside_follows follows_holdsNoPair
        (fun k take free => by cases k <;> first | rfl | exact absurd rfl take | exact absurd rfl free)
        (fun _ _ _ noRelay => grant_outside noRelay) (fun _ _ _ noRelay => grant_outside noRelay) cfg relay
    | true =>
      cases own : f.relays? with
      | some row =>
        have held : (pairCredits key).grant f = (row.pair == key).toNat := by simp [pairCredits, own]
        rw [held]
        exact (owes_relay own).balanced
      | none =>
        cases f with
        | relayTick => exact relayTick_holdsNoPair
        | relayOneJob | relayStream | relayPoll => cases own
        | _ => cases relay
  called s f w called := by
    cases f with
    | relayOneJob | relayStream | relayPoll =>
      rcases called.1 with isRequest | isTick <;> simp [Fn.isRequest, Fn.isTick] at *
    | _ => rfl
  abandoned f isRequest :=
    ⟨grant_outside (by cases f <;> first | rfl | cases isRequest), request_leavesSet isRequest⟩

/-- At most one task holds the right to relay for the pair, and only while the pair is in the set. -/
def Claimed (cfg : WorkerConfig) (key : Uuid × Uuid) (t : State) : Prop :=
  ∃ balance, t.Funded (engine cfg) (pairCredits key) (fun _ => True) balance ∧
    held balance t.tasks.length ≤ 1 ∧ (0 < held balance t.tasks.length → key ∈ t.world.active)

theorem claimed_step (step : Step (engine cfg) s l t)
    (fresh : ∀ tid, l = .op tid (.activeInsert key) () → key ∉ s.world.active) (claimed : Claimed cfg key s) :
    Claimed cfg key t := by
  obtain ⟨balance, funded, single, active⟩ := claimed
  by_cases restart : l = .restart
  · subst restart
    have nothing := step.account_restart
      (fun f => by cases request : f.isRequest <;> simp [engine, request]) funded
    exact ⟨_, nothing, by simp [held], by simp [held]⟩
  obtain ⟨balance', funded', moved⟩ :=
    step.account engine_passes_pairs funded fun isRestart => absurd isRestart restart
  refine ⟨balance', funded'.mono fun _ _ => trivial, ?_⟩
  by_cases noOp : ∀ tid o r, l ≠ .op tid o r
  · have none : l.earned (pairCredits key) = 0 ∧ l.spent (pairCredits key) = 0 := by
      cases l with
      | op tid o r => exact absurd rfl (noOp tid o r)
      | _ => exact ⟨rfl, rfl⟩
    rw [none.1, none.2, Nat.zero_add, Nat.zero_add] at moved
    rw [step_active step noOp restart, moved]
    exact ⟨single, active⟩
  · simp only [not_forall, not_not] at noOp
    obtain ⟨tid, o, r, rfl⟩ := noOp
    obtain ⟨root, next, w, -, done, after⟩ := step.op_inv
    have world : t.world = w := congrArg Sys.world after
    have done : exec s.world o r w := done
    rw [world]
    cases o with
    | activeInsert other =>
      cases done
      by_cases own : other = key
      · subst own
        have nothing : held balance s.tasks.length = 0 :=
          Nat.eq_zero_of_not_pos fun some => fresh tid rfl (active some)
        simp only [Label.spent, Label.earned, pairCredits, beq_self_eq_true, Bool.toNat_true] at moved
        exact ⟨by omega, fun _ => List.mem_insert_self⟩
      · have earned : (other == key) = false := by simpa using own
        simp only [Label.spent, Label.earned, pairCredits, earned, Bool.toNat_false, Nat.zero_add] at moved
        rw [moved]
        exact ⟨single, fun some => List.mem_insert_of_mem (active some)⟩
    | activeRemove other =>
      cases done
      by_cases own : other = key
      · subst own
        simp only [Label.spent, Label.earned, pairCredits, beq_self_eq_true, Bool.toNat_true] at moved
        exact ⟨by omega, fun _ => by omega⟩
      · have earned : (other == key) = false := by simpa using own
        simp only [Label.spent, Label.earned, pairCredits, earned, Bool.toNat_false, Nat.zero_add] at moved
        rw [moved]
        exact ⟨single, fun some => (List.mem_erase_of_ne (Ne.symm own)).mpr (active some)⟩
    | _ =>
      have same : w.active = s.world.active := (exec_active done).resolve_right (by simp)
      have kept : held balance' t.tasks.length = held balance s.tasks.length :=
        (Nat.zero_add _).symm.trans (moved.trans (Nat.zero_add _))
      rw [same, kept]
      exact ⟨single, active⟩

theorem run_claimed (run : Run (engine cfg) s h t) (initial : Initial s) : Claimed cfg key t := by
  induction run with
  | nil =>
    refine ⟨fun _ => 0, fun tid task at_ => ?_, by simp [held], by simp [held]⟩
    rw [initial.tasks] at at_
    cases at_
  | snoc before step ih =>
    refine claimed_step step (fun tid label => ?_) ih
    have whole : Run (engine cfg) _ (_ ++ _ :: []) _ := before.snoc step
    exact activeInsert_fresh whole initial label

/-! ## Relays that are not over -/

def LeftOfRelay (f : Fn) (p : Proc Unit) : Prop := ∀ row, f = .relayOneJob row → p = .ret () ∨ Owes row p

theorem leaves_relay : (engine cfg).Leaves LeftOfRelay where
  body f row eq := by
    subst eq
    have owes : Owes row (body cfg (.relayOneJob row)) := owes_relay rfl
    exact .inr owes
  ended f row eq := .inl rfl
  op left r row eq := by
    rcases left row eq with ended | ⟨-, last⟩ | ⟨-, rest⟩
    · cases ended
    · exact .inl (last r)
    · exact .inr (rest r)
  spawn left row eq := (left row eq).elim nofun False.elim
  jump {_ g} left row eq := by
    rcases left row eq with ended | own
    · cases ended
    · have owes : Owes row (body cfg g) := owes_relay own
      exact .inr owes

/-- A pair has at most one relay that is not over. -/
theorem relay_unique {tid' : Nat} {row' : RunningHostJob} {p' : Proc Unit} (run : Run (engine cfg) s h t)
    (initial : Initial s) (at_ : t.tasks[tid]? = some ⟨.relayOneJob row, p⟩)
    (at_' : t.tasks[tid']? = some ⟨.relayOneJob row', p'⟩) (alive : p ≠ .ret ()) (alive' : p' ≠ .ret ())
    (same : row.pair = row'.pair) : tid = tid' := by
  have claimed : Claimed cfg row.pair t := run_claimed run initial
  obtain ⟨balance, funded, single, -⟩ := claimed
  have left := run.leaves initial.tasks leaves_relay
  have owes := (left _ (List.mem_of_getElem? at_) row rfl).resolve_left alive
  have owes' := (left _ (List.mem_of_getElem? at_') row' rfl).resolve_left alive'
  have holds := owes.holds (funded tid _ at_).balanced
  have holds' := owes'.holds (same ▸ (funded tid' _ at_').balanced)
  by_contra other
  have both : balance tid + balance tid' ≤ held balance t.tasks.length :=
    add_le_held (List.getElem?_eq_some_iff.mp at_).1 (List.getElem?_eq_some_iff.mp at_').1 other
  omega

end PatchManager
