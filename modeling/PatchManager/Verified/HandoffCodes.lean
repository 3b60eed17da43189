import PatchManager.Web.Handoff

/-! # Hand-off codes

A code is stored once and the exchange takes it out of the map in one operation, so whoever
gets its tokens is alone in that.

Main result: `handoff_codes`.
-/

namespace PatchManager.Sso

open PatchManager.Conc

abbrev State := Sys World Op Op.Resp Fn
abbrev History := List (Event World Op Op.Resp Fn)

variable {s t : State} {h : History} {code : String} {handoff handoff' : SsoHandoff}

/-- The web process has just been started. -/
structure Initial (s : State) : Prop where
  tasks : s.tasks = []
  handoffs : s.world.handoffs = ∅

/-- Request `tid` has presented the code and has been answered. -/
def Answered (h : History) (t : State) (tid : Nat) (code : String) (answer : Nat × Json) : Prop :=
  (∃ task, t.tasks[tid]? = some task ∧ task.root = .ssoHandoffExchange code) ∧
    (ssoHandoffExchangeInner code).Returns (exchanges tid h) answer

/-- A login has stored its tokens under the code. -/
def StoredUnder (h : History) (code : String) (handoff : SsoHandoff) : Prop :=
  ∃ e ∈ h, ∃ tid, e.label = .op tid (.insertHandoff code handoff) ()

/-- Each code yields tokens to at most one exchange, the ones stored under it, and none once
    they have expired. -/
structure SingleUse (h : History) (t : State) : Prop where
  once : ∀ tid tid' code answer answer', Answered h t tid code answer → Answered h t tid' code answer' →
    answer.1 = 200 → answer'.1 = 200 → tid = tid'
  tokens : ∀ tid code answer, Answered h t tid code answer → answer.1 = 200 →
    ∃ handoff, StoredUnder h code handoff ∧ answer = handoff.response ∧
      ∀ handoff', StoredUnder h code handoff' → handoff' = handoff
  /-- both when the request came in and when it read the clock -/
  unexpired : ∀ tid code answer handoff, Answered h t tid code answer → answer.1 = 200 →
    StoredUnder h code handoff →
      (∀ e ∈ h, e.Starts tid (.ssoHandoffExchange code) → e.pre.world.now < handoff.expiresAt) ∧
      ∃ e ∈ h, e.label = .op tid .instantNow e.pre.world.now ∧ e.pre.world.now < handoff.expiresAt

/-! ## Programs -/

/-- What a request has exchanged before it stores or removes a hand-off. -/
def shape : Fn → List (Exchange Op Op.Resp) → Op → Prop
  | .ssoCallback _, l, .insertHandoff code _ =>
    ∃ now, l = [⟨.generateHandoffCode, code⟩, ⟨.instantNow, now⟩]
  | .ssoHandoffExchange _, _, .insertHandoff _ _ => False
  | _, _, _ => True

theorem body_shaped (f : Fn) : (body f).Along (shaped shape) (fun _ _ => True) (.init f) := by
  cases f with
  | ssoCallback login =>
    refine ⟨?_, fun code _ => ⟨?_, fun now _ => ⟨?_, fun _ _ => trivial⟩⟩⟩
    · intro f _; cases f <;> trivial
    · intro f _; cases f <;> trivial
    · intro f root
      obtain rfl := Option.some.inj root
      exact ⟨now, rfl⟩
  | ssoHandoffExchange code =>
    refine ⟨?_, fun removed _ => ?_⟩
    · intro f _; cases f <;> trivial
    · cases removed with
      | none => trivial
      | some handoff =>
        refine ⟨?_, fun now _ => ?_⟩
        · intro f _; cases f <;> trivial
        · simp only [Prog.ret_bind]
          split <;> trivial

/-- An exchange that yields tokens has removed the hand-off and found it unexpired. -/
theorem exchanged_of_returns {l : List (Exchange Op Op.Resp)} {answer : Nat × Json}
    (returns : (ssoHandoffExchangeInner code).Returns l answer) (ok : answer.1 = 200) :
    ∃ handoff now, l = [⟨.removeHandoff code, some handoff⟩, ⟨.instantNow, now⟩] ∧
      now < handoff.expiresAt ∧ answer = handoff.response := by
  obtain ⟨removed, l, rfl, rest⟩ := returns.op_inv
  cases removed with
  | none =>
    obtain ⟨-, rfl⟩ := rest.ret_inv
    simp [invalidHandoff] at ok
  | some handoff =>
    obtain ⟨now, l, rfl, last⟩ := rest.op_inv
    by_cases expired : handoff.expiresAt ≤ now
    · simp only [Prog.ret_bind, if_pos expired] at last
      obtain ⟨-, rfl⟩ := last.ret_inv
      simp [invalidHandoff] at ok
    · simp only [Prog.ret_bind, if_neg expired] at last
      obtain ⟨rfl, rfl⟩ := last.ret_inv
      exact ⟨handoff, now, rfl, Int.not_le.mp expired, rfl⟩

/-! ## Steps -/

/-- What one step does to the world. -/
inductive Moves (w : World) : Label Op Op.Resp Fn → World → Prop
  | generate {tid : Nat} {code : String} (new : code ∉ w.codes) :
      Moves w (.op tid .generateHandoffCode code) { w with codes := code :: w.codes }
  | insert {tid : Nat} {code : String} {handoff : SsoHandoff} :
      Moves w (.op tid (.insertHandoff code handoff) ())
        { w with handoffs := w.handoffs.insert code handoff }
  | remove {tid : Nat} {code : String} :
      Moves w (.op tid (.removeHandoff code) (w.handoffs.lookup code))
        { w with handoffs := w.handoffs.erase code }
  | read {tid : Nat} : Moves w (.op tid .instantNow w.now) w
  | purge {code : String} : Moves w .drift { w with handoffs := w.handoffs.erase code }
  | tick {micros : Nat} : Moves w .drift { w with now := w.now + micros }
  | restart : Moves w .restart { w with handoffs := ∅ }
  | idle {l : Label Op Op.Resp Fn} : Moves w l w

section steps

variable {l : Label Op Op.Resp Fn} {tid : Nat}

theorem moves_of_step (step : Step handoffs.machine s l t) : Moves s.world l t.world := by
  rcases Service.world_cases step with ⟨tid, o, r, a, rfl, done⟩ | ⟨d, rfl, moved⟩ | ⟨rfl, moved⟩ |
      ⟨-, same⟩
  · change execute s.world o a = some (r, t.world) at done
    cases o with
    | generateHandoffCode =>
      simp only [execute, Option.ite_none_left_eq_some] at done
      obtain ⟨new, pair⟩ := done
      obtain ⟨rfl, moved⟩ := Prod.mk.inj (Option.some.inj pair)
      exact moved ▸ .generate new
    | instantNow =>
      obtain ⟨rfl, moved⟩ := Prod.mk.inj (Option.some.inj done)
      exact moved ▸ .read
    | insertHandoff code handoff =>
      obtain ⟨-, moved⟩ := Prod.mk.inj (Option.some.inj done)
      exact moved ▸ .insert
    | removeHandoff code =>
      obtain ⟨rfl, moved⟩ := Prod.mk.inj (Option.some.inj done)
      exact moved ▸ .remove
  · change t.world = change s.world d at moved
    rw [moved]
    cases d with
    | tick micros => exact .tick
    | purge code =>
      simp only [change]
      split
      · exact .purge
      · exact .idle
  · rw [moved]
    exact .restart
  · rw [same]
    exact .idle

/-- What is stored was stored before or is stored by this step. -/
theorem stored_cases (step : Step handoffs.machine s l t)
    (found : t.world.handoffs.lookup code = some handoff) :
    s.world.handoffs.lookup code = some handoff ∨
      ∃ tid, l = .op tid (.insertHandoff code handoff) () := by
  have erased : ∀ code', (s.world.handoffs.erase code').lookup code = some handoff →
      s.world.handoffs.lookup code = some handoff := by
    intro code' found
    by_cases same : code = code'
    · rw [same, AList.lookup_erase] at found
      cases found
    · rwa [AList.lookup_erase_ne same] at found
  have moves := moves_of_step step
  generalize t.world = w at moves found
  cases moves with
  | @insert tid code' =>
    by_cases same : code = code'
    · subst same
      rw [AList.lookup_insert] at found
      obtain rfl := Option.some.inj found
      exact .inr ⟨tid, rfl⟩
    · rw [AList.lookup_insert_ne same] at found
      exact .inl found
  | remove => exact .inl (erased _ found)
  | purge => exact .inl (erased _ found)
  | restart => cases found
  | _ => exact .inl found

/-- What a removal finds and leaves. -/
theorem removed {r : Option SsoHandoff} (step : Step handoffs.machine s (.op tid (.removeHandoff code) r) t) :
    s.world.handoffs.lookup code = r ∧ t.world.handoffs.lookup code = none := by
  obtain ⟨_, _, _, _, ⟨a, done⟩, rfl⟩ := step.op_inv
  obtain ⟨rfl, rfl⟩ := Prod.mk.inj (Option.some.inj done)
  exact ⟨rfl, AList.lookup_erase ..⟩

theorem codes_grow (step : Step handoffs.machine s l t) (taken : code ∈ s.world.codes) :
    code ∈ t.world.codes := by
  have moves := moves_of_step step
  generalize t.world = w at moves
  cases moves with
  | generate => exact List.mem_cons_of_mem _ taken
  | _ => exact taken

theorem clock_grows (step : Step handoffs.machine s l t) : s.world.now ≤ t.world.now := by
  have moves := moves_of_step step
  generalize t.world = w at moves
  cases moves with
  | tick => simp
  | _ => exact Int.le_refl _

end steps

/-! ## Runs -/

/-- The code an operation has been given. -/
def Op.given : (o : Op) → o.Resp → Option String
  | .generateHandoffCode, code => some code
  | _, _ => none

/-- The code an operation stores a hand-off under. -/
def Op.stores : Op → Option String
  | .insertHandoff code _ => some code
  | _ => none

theorem given_fresh {w w' : World} {o : Op} {r : o.Resp} (done : handoffs.machine.exec w o r w')
    (given : o.given r = some code) : code ∉ w.codes ∧ code ∈ w'.codes := by
  obtain ⟨a, done⟩ := done
  cases o with
  | generateHandoffCode =>
    change execute w .generateHandoffCode a = some (r, w') at done
    simp only [execute, Option.ite_none_left_eq_some] at done
    obtain ⟨new, pair⟩ := done
    obtain ⟨rfl, rfl⟩ := Prod.mk.inj (Option.some.inj pair)
    obtain rfl := Option.some.inj given
    exact ⟨new, List.mem_cons_self⟩
  | _ => cases given

/-- Whose exchange yields tokens has removed the hand-off, and read the clock after that. -/
theorem exchanged {tid : Nat} {answer : Nat × Json} (answered : Answered h t tid code answer)
    (ok : answer.1 = 200) :
    ∃ handoff now h₁ e h₂ e' h₃, h = h₁ ++ e :: (h₂ ++ e' :: h₃) ∧
      e.label = .op tid (.removeHandoff code) (some handoff) ∧ e'.label = .op tid .instantNow now ∧
      now < handoff.expiresAt ∧ answer = handoff.response := by
  obtain ⟨handoff, now, eq, unexpired, response⟩ := exchanged_of_returns answered.2 ok
  have second : exchanges tid h =
      [⟨Op.removeHandoff code, some handoff⟩] ++ ⟨Op.instantNow, now⟩ :: [] := eq
  obtain ⟨h₁, e', h₃, rfl, before, label'⟩ := exchanges_split second
  have first : exchanges tid h₁ = [] ++ ⟨Op.removeHandoff code, some handoff⟩ :: [] := before
  obtain ⟨h₁, e, h₂, rfl, -, label⟩ := exchanges_split first
  exact ⟨handoff, now, h₁, e, h₂, e', h₃, by simp, label, label', unexpired, response⟩

section runs

variable (run : Run handoffs.machine s h t) (initial : Initial s)

include run initial

/-- A code is used for storing once. -/
theorem insert_once {h₁ h₂ h₃ : History} {e e' : Event World Op Op.Resp Fn} {tid tid' : Nat}
    (split : h = h₁ ++ e :: (h₂ ++ e' :: h₃)) (label : e.label = .op tid (.insertHandoff code handoff) ())
    (label' : e'.label = .op tid' (.insertHandoff code handoff') ()) : False := by
  refine run.uses_once Op.given Op.stores (fun w code => code ∈ w.codes)
    (fun _ _ _ _ _ done given => given_fresh done given) (fun _ _ _ _ step taken => codes_grow step taken)
    ?_ split label label' rfl rfl
  intro h₁ e h₂ tid o r code eq label stores
  subst eq
  obtain ⟨task, -, shape_of⟩ := run.shaped initial.tasks body_shaped label
  cases o with
  | insertHandoff code' handoff =>
    obtain rfl := Option.some.inj stores
    generalize task.root = f at shape_of
    cases f with
    | ssoCallback login =>
      obtain ⟨now, eq⟩ := shape_of
      simp [eq, Op.given, Op.stores]
    | ssoHandoffExchange code => cases shape_of
  | _ => cases stores

/-- What the code is stored for now has been stored under it. -/
theorem storedUnder_of_lookup (found : t.world.handoffs.lookup code = some handoff) :
    StoredUnder h code handoff := by
  have absent : s.world.handoffs.lookup code ≠ some handoff := by
    rw [initial.handoffs]
    intro found
    cases found
  obtain ⟨h₁, e, h₂, rfl, before, after⟩ :=
    run.exists_change (P := fun s => s.world.handoffs.lookup code = some handoff) absent found
  rcases stored_cases (run.split_event.2.1) after with old | ⟨tid, label⟩
  · exact absurd old before
  · exact ⟨e, by simp, tid, label⟩

/-- A hand-off is removed once. -/
theorem removed_once {tid tid' : Nat} {h₁ h₂ h₃ : History} {e e' : Event World Op Op.Resp Fn}
    (split : h = h₁ ++ e :: (h₂ ++ e' :: h₃))
    (label : e.label = .op tid (.removeHandoff code) (some handoff))
    (label' : e'.label = .op tid' (.removeHandoff code) (some handoff')) : False := by
  subst split
  obtain ⟨-, step, rest⟩ := run.split_event
  obtain ⟨-, step', -⟩ := rest.split_event
  rw [label] at step
  rw [label'] at step'
  refine run.taken_once (P := fun s => s.world.handoffs.lookup code ≠ none)
    (Q := fun l => ∃ tid handoff, l = .op tid (.insertHandoff code handoff) ())
    (by simp [initial.handoffs]) ?_ ?_ (by simp [(removed step).1]) (by simp [(removed step).2])
    (by simp [(removed step').1])
  · intro a mem absent present
    obtain ⟨handoff, found⟩ := Option.ne_none_iff_exists'.mp present
    rcases stored_cases (run.step_of_mem mem) found with old | ⟨tid, new⟩
    · simp [old] at absent
    · exact ⟨tid, handoff, new⟩
  · rintro l₁ a l₂ b l₃ eq ⟨_, _, label⟩ ⟨_, _, label'⟩
    exact insert_once run initial eq label label'

/-- What is stored under a code is one hand-off. -/
theorem storedUnder_unique (stored : StoredUnder h code handoff) (stored' : StoredUnder h code handoff') :
    handoff' = handoff := by
  obtain ⟨e, mem, tid, label⟩ := stored
  obtain ⟨e', mem', tid', label'⟩ := stored'
  obtain ⟨h₁, h₂, eq⟩ := List.append_of_mem mem
  obtain ⟨h₁', h₂', eq'⟩ := List.append_of_mem mem'
  rcases split_cases (eq.symm.trans eq') with ⟨-, rfl, -⟩ | ⟨m, later, -⟩ | ⟨m, later, -⟩
  · rw [label] at label'
    simp only [Label.op.injEq, Op.insertHandoff.injEq] at label'
    exact label'.2.1.2.symm
  · exact (insert_once run initial (by rw [eq, later]) label label').elim
  · exact (insert_once run initial (by rw [eq', later]) label' label).elim

/-- The hand-off that an exchange removes has been stored under its code. -/
theorem storedUnder_of_removal {h₁ h₂ : History} {e : Event World Op Op.Resp Fn} {tid : Nat}
    (split : h = h₁ ++ e :: h₂) (label : e.label = .op tid (.removeHandoff code) (some handoff)) :
    StoredUnder h code handoff := by
  subst split
  obtain ⟨before, step, -⟩ := run.split_event
  rw [label] at step
  obtain ⟨e', mem, tid', label'⟩ := storedUnder_of_lookup before initial (removed step).1
  exact ⟨e', by simp [mem], tid', label'⟩

/-- Hand-off codes are single use, yield what was stored under them, and nothing once expired. -/
theorem handoff_codes : SingleUse h t := by
  refine ⟨?once, ?tokens, ?unexpired⟩
  case once =>
    intro tid tid' code answer answer' answered answered' ok ok'
    obtain ⟨_, _, h₁, e, h₂, f, h₃, eq, label, -⟩ := exchanged answered ok
    obtain ⟨_, _, h₁', e', h₂', f', h₃', eq', label', -⟩ := exchanged answered' ok'
    rcases split_cases (eq.symm.trans eq') with ⟨-, rfl, -⟩ | ⟨m, later, -⟩ | ⟨m, later, -⟩
    · rw [label] at label'
      simp only [Label.op.injEq] at label'
      exact label'.1
    · exact (removed_once run initial (by rw [eq, later]) label label').elim
    · exact (removed_once run initial (by rw [eq', later]) label' label).elim
  case tokens =>
    intro tid code answer answered ok
    obtain ⟨handoff, _, h₁, e, h₂, f, h₃, eq, label, -, -, response⟩ := exchanged answered ok
    have stored := storedUnder_of_removal run initial eq label
    exact ⟨handoff, stored, response, fun _ stored' => storedUnder_unique run initial stored stored'⟩
  case unexpired =>
    intro tid code answer handoff answered ok stored
    obtain ⟨found, now, h₁, e, h₂, f, h₃, eq, label, read, unexpired, -⟩ := exchanged answered ok
    obtain rfl := storedUnder_unique run initial stored (storedUnder_of_removal run initial eq label)
    have mem : f ∈ h := by simp [eq]
    have step := run.step_of_mem mem
    rw [read] at step
    have clock : f.pre.world.now = now := by
      obtain ⟨_, _, _, -, ⟨a, done⟩, -⟩ := step.op_inv
      exact (Prod.mk.inj (Option.some.inj done)).1
    subst clock
    refine ⟨fun e' mem' starts => ?_, f, mem, read, unexpired⟩
    obtain ⟨l₁, l₂, l₃, rfl⟩ := run.starts_before mem' starts mem read
    obtain ⟨-, begun, rest⟩ := run.split_event
    obtain ⟨between, -⟩ := rest.split_event
    refine Int.lt_of_le_of_lt ?_ unexpired
    exact (between.cons begun).preserves (I := fun s => e'.pre.world.now ≤ s.world.now)
      (fun _ _ step before => Int.le_trans before (clock_grows step)) (Int.le_refl _)

end runs

namespace Small

def start : State := ⟨{ now := 0 }, []⟩

/-- A login, and two exchanges of its code whose requests overlap. -/
def twoExchanges : List (Move handoffs.player) :=
  [.call (.ssoCallback ⟨"access", "refresh", .null, 900⟩), .run 0 "code", .run 0 "", .run 0 "",
    .call (.ssoHandoffExchange "code"), .call (.ssoHandoffExchange "code"), .run 2 "", .run 1 "",
    .change (.tick 1000000), .run 2 ""]

end Small

theorem handoff_codes_twoExchanges :
    SingleUse (handoffs.player.history Small.start Small.twoExchanges)
      (Player.last Small.start (handoffs.player.history Small.start Small.twoExchanges)) := by
  have plays : (handoffs.player.play Small.start Small.twoExchanges).isSome = true := by decide +kernel
  exact handoff_codes (handoffs.player.run_of_play plays) ⟨rfl, rfl⟩

end PatchManager.Sso
