import PatchManager.Conc.Closed
import PatchManager.Worker.HealthPoller

/-! # When a host is unreachable, and when it is healthy

The poller counts failures in the row and looks at the status of the agent's revocation list; a
refresh does neither.  So a refresh makes a host unreachable after one failure, and healthy in spite
of an invalid list, and an answer to a refresh does not reset the count.

What a task writes is settled when its attempt to reach the agent ends.  `Phase` follows a task from
there to its update, and `Fits` says of a state what the tasks' updates will find.

Main results:

* `status_consistent`: the law, where refreshes and answers come when they do no harm.
* `refresh_unreachable`: one attempt of a refresh fails.
-/

namespace PatchManager.Health

open PatchManager.Conc

/-! ## What is known of the agent -/

/-- The failures since the last answer. -/
def failures : List Contact → Nat
  | [] | .answered _ :: _ => 0
  | .failed :: earlier => failures earlier + 1
  | .errored :: earlier => failures earlier

/-- The last status of its revocation list the agent has reported. -/
def lastCrlStatus : List Contact → Option String
  | .answered (some crl) :: _ => some crl
  | _ :: earlier => lastCrlStatus earlier
  | [] => none

/-- There are grounds for calling the host unreachable. -/
def World.Grounds (w : World) : Prop :=
  failureThreshold.toInt ≤ failures w.contacts ∨ lastCrlStatus w.contacts = some "invalid"

structure World.Consistent (w : World) : Prop where
  unreachable : w.host.healthStatus = .unreachable → w.Grounds
  healthy : w.host.healthStatus = .healthy → lastCrlStatus w.contacts ≠ some "invalid"

/-! ## Where a task is -/

inductive Phase where
  | idle
  /-- a poll cycle before its query, and after it -/
  | polling
  | selected (row : HostRow)
  | refreshing
  /-- the outcome is known and still to be written -/
  | polled (row : HostRow) (contact : Contact)
  | refreshed (contact : Contact)
deriving DecidableEq

namespace Phase

def next : Phase → (o : Op) → o.Resp → Phase
  | .polling, .loadAgentCerts, false => .idle
  | .polling, .selectHosts, none => .idle
  | .polling, .selectHosts, some row => .selected row
  | .selected row, o, r => (contact? o r).elim (.selected row) (.polled row)
  | .refreshing, .selectHost, false => .idle
  | .refreshing, .loadAgentCerts, false => .idle
  | .refreshing, o, r => (contact? o r).elim .refreshing .refreshed
  | .polled _ _, .updateHost _ _ _, _ => .idle
  | .refreshed _, .updateHealthStatus _, _ => .idle
  | σ, _, _ => σ

/-- The outcome that is still to be written. -/
def contact : Phase → Option Contact
  | .polled _ c | .refreshed c => some c
  | _ => none

/-- An answer is still to be written. -/
def answered (σ : Phase) : Bool :=
  match σ.contact with
  | some (.answered _) => true
  | _ => false

/-- An answer that resets the count is still to be written. -/
def resets : Phase → Bool
  | .polled _ (.answered _) => true
  | _ => false

def polls : Phase → Bool
  | .polling | .selected _ | .polled _ _ => true
  | _ => false

end Phase

/-- What the agent's side says of the status, the list aside. -/
def Contact.status : Contact → HostHealthStatus
  | .failed => .unreachable
  | .errored => .degraded
  | .answered _ => .healthy

def Contact.crlStatus : Contact → Option String
  | .answered crlStatus => crlStatus
  | _ => none

/-- What a poll that has found `row` writes after the outcome `c`. -/
def Written (row : HostRow) (c : Contact) (status : HostHealthStatus) (count : Int32) : Prop :=
  match c with
  | .failed => count = row.consecutiveFailures + 1 ∧ status ≠ .healthy ∧
      (status = .unreachable → failureThreshold ≤ count)
  | .errored => count = row.consecutiveFailures ∧ status = .degraded
  | .answered crl => count = 0 ∧ (status = .unreachable → crl = some "invalid") ∧
      (status = .healthy → crl ≠ some "invalid")

def Phase.Permits : Phase → Op → Prop
  | .polling, .loadAgentCerts | .polling, .selectHosts => True
  | .selected _, .newClient | .selected _, .health => True
  | .polled _ _, .utcNow | .polled _ _, .insertHealthData _ => True
  | .polled row c, .updateHost status _ count => Written row c status count
  | .refreshing, .selectHost | .refreshing, .loadAgentCerts => True
  | .refreshing, .newClient | .refreshing, .health => True
  | .refreshed _, .insertHealthData _ => True
  | .refreshed c, .updateHealthStatus status => status = c.status
  | _, _ => False

def phases : Contract Op Op.Resp Fn where
  State := Phase
  idle := .idle
  init
    | .pollCycle => .polling
    | .refresh => .refreshing
  next := Phase.next
  rely _ _ := True
  guar := Phase.Permits
  start _ _ := True
  tail _ _ := False
  exit σ := σ = .idle

/-- Where each task is after a history. -/
def phase (h : History) : Nat → Phase := worker.ghost phases h

/-! ## Runs in which refreshes do no harm -/

/-- A new outcome of the task `tid` does no harm to what is known and what is still to be written
    by `count` tasks. -/
def Admissible (σ : Nat → Phase) (count tid : Nat) (w : World) : Contact → Prop
  | .errored => True
  | .failed => σ tid = .refreshing →
      failureThreshold.toInt ≤ failures w.contacts + 1 ∨ lastCrlStatus w.contacts = some "invalid"
  | .answered crl =>
    let known := lastCrlStatus w.contacts = some "invalid"
    let reported := crl.or (lastCrlStatus w.contacts) = some "invalid"
    (∀ other < count, (σ other).contact ≠ some .failed) ∧
      ((∀ other < count, (σ other).answered = false) ∨ (reported ↔ known)) ∧
      (σ tid = .refreshing → ¬ reported ∧
        (w.host.consecutiveFailures = 0 ∨ ∃ other < count, (σ other).resets = true)) ∧
      (σ tid ≠ .refreshing → crl = none → ¬ known)

/-- An update that the database does not carry out. -/
def failed : (o : Op) → o.Resp → Bool
  | .updateHost _ _ _, r | .updateHealthStatus _, r => !r
  | _, _ => false

/-- A new outcome does no harm, and an answer gets written. -/
def Careful (σ : Nat → Phase) (e : Event World Op Op.Resp Fn) : Prop :=
  match e.label with
  | .op tid o r =>
    (∀ c ∈ contact? o r, Admissible σ e.pre.tasks.length tid e.pre.world c) ∧
      (failed o r = true → (σ tid).answered = false)
  | .abandon tid => (σ tid).answered = false
  | .restart => ∀ tid < e.pre.tasks.length, (σ tid).answered = false
  | _ => True

instance (σ : Nat → Phase) (bound tid : Nat) (w : World) :
    (c : Contact) → Decidable (Admissible σ bound tid w c)
  | .errored => .isTrue trivial
  | .failed => inferInstanceAs (Decidable (_ → _ ∨ _))
  | .answered _ => inferInstanceAs (Decidable (_ ∧ (_ ∨ (_ ↔ _)) ∧ (_ → _) ∧ (_ → _ → _)))

instance (σ : Nat → Phase) : (e : Event World Op Op.Resp Fn) → Decidable (Careful σ e)
  | ⟨_, .op _ _ _, _⟩ => inferInstanceAs (Decidable (_ ∧ _))
  | ⟨_, .abandon _, _⟩ => inferInstanceAs (Decidable (_ = _))
  | ⟨_, .restart, _⟩ => inferInstanceAs (Decidable (∀ _ < _, _))
  | ⟨_, .spawn _ _, _⟩ | ⟨_, .jump _ _, _⟩ | ⟨_, .enter _, _⟩ | ⟨_, .drift, _⟩ => .isTrue trivial

structure Initial (s : State) : Prop where
  tasks : s.tasks = []
  contacts : s.world.contacts = []
  healthStatus : s.world.host.healthStatus = .pending
  consecutiveFailures : s.world.host.consecutiveFailures = 0

/-! ## What the updates will find -/

/-- What holds of the world while a task is where it is. -/
def World.Assumed (w : World) : Phase → Prop
  | .selected row => row.consecutiveFailures = w.host.consecutiveFailures
  | .polled row .failed => row.consecutiveFailures = w.host.consecutiveFailures ∧
      row.consecutiveFailures.toInt + 1 ≤ failures w.contacts
  | .polled row .errored => row.consecutiveFailures = w.host.consecutiveFailures
  | .polled _ (.answered crl) => crl = some "invalid" ↔ lastCrlStatus w.contacts = some "invalid"
  | .refreshed .failed => w.Grounds
  | .refreshed (.answered _) => lastCrlStatus w.contacts ≠ some "invalid"
  | _ => True

/-- There is one poll at a time; the count in the row and the status are right, unless an answer is
    still to be written. -/
structure Fits (σ : Nat → Phase) (w : World) : Prop where
  single : ∀ tid tid', tid ≠ tid' → (σ tid).polls = true → (σ tid').polls = false
  assumed : ∀ tid, w.Assumed (σ tid)
  count : w.host.consecutiveFailures.toInt ≤ failures w.contacts ∨ ∃ tid, (σ tid).resets = true
  status : w.Consistent ∨ ∃ tid, (σ tid).answered = true

/-! ## The two functions -/

theorem toInt_add_one_le (n : Int32) : (n + 1).toInt ≤ n.toInt + 1 := by
  have low := n.le_toInt
  have high := n.toInt_lt
  rw [Int32.toInt_add, show (1 : Int32).toInt = 1 from rfl, Int.bmod_def]
  omega

/-- The status after the rules for the list. -/
def Effective (c : Contact) (effective : HostHealthStatus) : Prop :=
  match c with
  | .answered crl => (effective = .unreachable ↔ crl = some "invalid") ∧
      (effective = .healthy → crl ≠ some "invalid")
  | c => effective = c.status

theorem written_of_effective {row : HostRow} {c : Contact} {effective : HostHealthStatus}
    (rules : Effective c effective) :
    Written row c (applyHysteresis c.status effective row.consecutiveFailures).2
      (applyHysteresis c.status effective row.consecutiveFailures).1 := by
  cases c with
  | failed =>
    obtain rfl : effective = .unreachable := rules
    refine ⟨rfl, ?_, ?_⟩
    · simp only [applyHysteresis, Contact.status]
      split <;> simp
    · simp only [applyHysteresis, Contact.status]
      split
      · intro _
        assumption
      · simp
  | errored =>
    obtain rfl : effective = .degraded := rules
    simp [Written, applyHysteresis, Contact.status]
  | answered crl =>
    have kept : (applyHysteresis .healthy effective row.consecutiveFailures).2 = effective := by
      simp [applyHysteresis]
    simp only [Contact.status, Written, kept]
    exact ⟨rfl, rules.1.mp, rules.2⟩

theorem applyCrlHealthRules_along (row : HostRow) (c : Contact) (registeredAt : Time) :
    (applyCrlHealthRules c.status c.crlStatus registeredAt).Along phases
      (fun σ effective => σ = .polled row c ∧ Effective c effective) (.polled row c) := by
  cases c with
  | failed => exact ⟨rfl, rfl⟩
  | errored => exact ⟨rfl, rfl⟩
  | answered crl =>
    cases crl with
    | none => exact ⟨rfl, by simp [Effective, Contact.status]⟩
    | some crl =>
      simp only [applyCrlHealthRules, Contact.crlStatus, Contact.status]
      split
      · next invalid => exact ⟨rfl, by simp [Effective, invalid]⟩
      · next valid =>
        -- where the list is not invalid, the status may become degraded
        split
        · exact ⟨rfl, by simp [Effective, valid]⟩
        · split
          · refine ⟨trivial, fun now _ => ⟨rfl, ?_⟩⟩
            split <;> simp [Effective, valid]
          · exact ⟨rfl, by simp [Effective, valid]⟩

theorem pollHostHealth_along (row : HostRow) :
    (pollHostHealth row).Along phases (fun σ _ => σ = .idle) (.selected row) := by
  have write (c : Contact) : ((applyCrlHealthRules c.status c.crlStatus row.registeredAt).bind
      fun effective =>
        (perform (.insertHealthData c.status)).bind fun _ =>
          (perform (.updateHost (applyHysteresis c.status effective row.consecutiveFailures).2 c.crlStatus
            (applyHysteresis c.status effective row.consecutiveFailures).1)).bind fun _ =>
              .ret (applyHysteresis c.status effective row.consecutiveFailures).2).Along
      phases (fun σ _ => σ = .idle) (.polled row c) := by
    refine (applyCrlHealthRules_along row c row.registeredAt).bind fun σ effective both => ?_
    obtain ⟨rfl, rules⟩ := both
    exact ⟨trivial, fun _ _ => ⟨written_of_effective rules, fun _ _ => rfl⟩⟩
  refine ⟨trivial, fun built _ => ?_⟩
  cases built with
  | false => exact write .failed
  | true =>
    refine ⟨trivial, fun reply _ => ?_⟩
    cases reply with
    | ok crl => exact write (.answered crl)
    | error e =>
      cases e with
      | timeout | connect => exact write .failed
      | tls | request | apiError | deserialize => exact write .errored

theorem pollCycle_along : pollCycle.Along phases (fun σ _ => σ = .idle) .polling := by
  refine ⟨trivial, fun loaded _ => ?_⟩
  cases loaded with
  | false => exact rfl
  | true =>
    refine ⟨trivial, fun row _ => ?_⟩
    cases row with
    | none => exact rfl
    | some row => exact (pollHostHealth_along row).bind fun _ _ done => done

theorem persistHealth_along (c : Contact) :
    (persistHealth c.status).Along phases (fun σ _ => σ = .idle) (.refreshed c) :=
  ⟨trivial, fun _ _ => ⟨rfl, fun _ _ => rfl⟩⟩

theorem refreshHost_along : refreshHost.Along phases (fun σ _ => σ = .idle) .refreshing := by
  refine ⟨trivial, fun built _ => ?_⟩
  cases built with
  | false => exact persistHealth_along .failed
  | true =>
    refine ⟨trivial, fun reply _ => ?_⟩
    cases reply with
    | ok crl => exact persistHealth_along (.answered crl)
    | error e =>
      cases e with
      | timeout | connect => exact persistHealth_along .failed
      | tls | request | apiError | deserialize => exact persistHealth_along .errored

theorem refresh_along : refresh.Along phases (fun σ _ => σ = .idle) .refreshing := by
  refine ⟨trivial, fun found _ => ?_⟩
  cases found with
  | false => exact rfl
  | true =>
    refine ⟨trivial, fun loaded _ => ?_⟩
    cases loaded with
    | false => exact rfl
    | true => exact refreshHost_along

theorem keeps_phases : worker.Keeps phases where
  starts _ f _ := by
    cases f with
    | pollCycle => exact pollCycle_along
    | refresh => exact refresh_along
  tails _ _ called := called.elim
  idle := rfl

/-- No function starts or calls another. -/
theorem body_within (f : Fn) : (body f).Within (fun _ => True) (fun _ => False) (fun _ => False) := by
  have rules (natural crl registeredAt) : (applyCrlHealthRules natural crl registeredAt).Within
      (fun _ => True) (fun _ => False) (fun _ => False) := by
    unfold applyCrlHealthRules
    cases crl with
    | none => exact .ret _
    | some crl => exact .ite (.ret _) (.ite (.ret _) (.ite (.op trivial fun _ => .ret _) (.ret _)))
  have poll (row) : (pollHostHealth row).Within (fun _ => True) (fun _ => False) (fun _ => False) := by
    refine .bind (.op trivial fun built => ?_) fun contact => .bind (rules ..) fun _ =>
      .op trivial fun _ => .op trivial fun _ => .ret _
    refine .ite (.op trivial fun reply => ?_) (.ret _)
    cases reply with
    | ok crl => exact .ret _
    | error e => cases e <;> exact .ret _
  have persist (status) : (persistHealth status).Within (fun _ => True) (fun _ => False) (fun _ => False) :=
    .op trivial fun _ => .op trivial fun _ => .ret _
  cases f with
  | pollCycle =>
    refine .op trivial fun loaded => .ite (.op trivial fun row => ?_) (.ret _)
    cases row with
    | none => exact .ret _
    | some row => exact .bind (p := pollHostHealth row) (poll row) fun _ => .ret _
  | refresh =>
    refine .op trivial fun found => .ite (.op trivial fun loaded => .ite ?_ (.ret _)) (.ret _)
    refine .op trivial fun built => .ite (.op trivial fun reply => ?_) (persist _)
    refine .bind ?_ persist
    cases reply with
    | ok crl => exact .ret _
    | error e => cases e <;> exact .ret _

/-! ## One step -/

@[simp] theorem polls_refreshing (outcome : Option Contact) :
    (outcome.elim .refreshing Phase.refreshed).polls = false := by
  cases outcome <;> rfl

theorem polls_next {σ : Phase} {o : Op} {r : o.Resp} (polls : (σ.next o r).polls = true) :
    σ.polls = true := by
  unfold Phase.next at polls
  split at polls
  all_goals first
    | rfl
    | exact polls
    | exact absurd polls Bool.false_ne_true
    | simp at polls

section step

variable {σ : Nat → Phase} {w w' : World} {tid : Nat}

theorem Fits.idle_of_single (fits : Fits σ w) (polls : (σ tid).polls = true) {other : Nat}
    (ne : other ≠ tid) : (σ other).polls = false :=
  fits.single tid other ne.symm polls

/-- A task that moves on; the others find what they assume. -/
theorem Fits.update {τ : Phase} (fits : Fits σ w)
    (alone : τ.polls = true → ∀ other, other ≠ tid → (σ other).polls = false)
    (own : w'.Assumed τ) (others : ∀ other, other ≠ tid → w'.Assumed (σ other))
    (count : w'.host.consecutiveFailures.toInt ≤ failures w'.contacts ∨ τ.resets = true ∨
      ∃ other, other ≠ tid ∧ (σ other).resets = true)
    (status : w'.Consistent ∨ τ.answered = true ∨ ∃ other, other ≠ tid ∧ (σ other).answered = true) :
    Fits (Function.update σ tid τ) w' where
  single first second ne polling := by
    rcases eq_or_ne first tid with rfl | apart
    · rw [Function.update_self] at polling
      rw [Function.update_of_ne ne.symm]
      exact alone polling second ne.symm
    · rw [Function.update_of_ne apart] at polling
      rcases eq_or_ne second tid with rfl | apart'
      · rw [Function.update_self]
        by_contra busy
        have idle := alone (by simpa using busy) first apart
        simp [polling] at idle
      · rw [Function.update_of_ne apart']
        exact fits.single first second ne polling
  assumed other := by
    rcases eq_or_ne other tid with rfl | ne
    · rwa [Function.update_self]
    · rw [Function.update_of_ne ne]
      exact others other ne
  count := count.imp_right fun
    | .inl own => ⟨tid, by rwa [Function.update_self]⟩
    | .inr ⟨other, ne, resets⟩ => ⟨other, by rwa [Function.update_of_ne ne]⟩
  status := status.imp_right fun
    | .inl own => ⟨tid, by rwa [Function.update_self]⟩
    | .inr ⟨other, ne, answered⟩ => ⟨other, by rwa [Function.update_of_ne ne]⟩

theorem answered_of_resets {τ : Phase} (resets : τ.resets = true) : τ.answered = true := by
  cases τ with
  | polled row c => cases c <;> simp_all [Phase.resets, Phase.answered, Phase.contact]
  | _ => simp [Phase.resets] at resets

theorem polls_of_resets {τ : Phase} (resets : τ.resets = true) : τ.polls = true := by
  cases τ <;> simp_all [Phase.resets, Phase.polls]

/-- Of the tasks with something to write, one that has no answer is another. -/
theorem Fits.count_other (fits : Fits σ w) (none : (σ tid).resets = false) :
    w.host.consecutiveFailures.toInt ≤ failures w.contacts ∨
      ∃ other, other ≠ tid ∧ (σ other).resets = true :=
  fits.count.imp_right fun ⟨other, resets⟩ =>
    ⟨other, fun same => by simp [same, none] at resets, resets⟩

theorem Fits.status_other (fits : Fits σ w) (none : (σ tid).answered = false) :
    w.Consistent ∨ ∃ other, other ≠ tid ∧ (σ other).answered = true :=
  fits.status.imp_right fun ⟨other, answered⟩ =>
    ⟨other, fun same => by simp [same, none] at answered, answered⟩

/-- The count is right while a poll has no answer to write. -/
theorem Fits.count_of_polls (fits : Fits σ w) (polls : (σ tid).polls = true)
    (none : (σ tid).resets = false) : w.host.consecutiveFailures.toInt ≤ failures w.contacts := by
  rcases fits.count_other none with right | ⟨other, ne, resets⟩
  · exact right
  · have idle := fits.idle_of_single polls ne
    simp [polls_of_resets resets] at idle

/-- A task moves on and the world stays, with nothing of an answer lost. -/
theorem Fits.quiet {τ : Phase} (fits : Fits σ w)
    (alone : τ.polls = true → ∀ other, other ≠ tid → (σ other).polls = false)
    (own : w.Assumed τ) (none : (σ tid).answered = false) : Fits (Function.update σ tid τ) w := by
  have none' : (σ tid).resets = false := by
    by_contra resets
    simp [answered_of_resets (by simpa using resets)] at none
  exact fits.update alone own (fun other _ => fits.assumed other)
    ((fits.count_other none').imp_right .inr) ((fits.status_other none).imp_right .inr)

/-! ### New outcomes -/

theorem World.Assumed.of_errored {τ : Phase} {host contacts now}
    (assumed : World.Assumed ⟨host, contacts, now⟩ τ) :
    World.Assumed ⟨host, .errored :: contacts, now⟩ τ := by
  cases τ with
  | polled row c => cases c <;> exact assumed
  | refreshed c => cases c <;> exact assumed
  | _ => exact assumed

/-- With one more failure, what has been right stays right. -/
theorem World.Grounds.of_failed {host contacts now} (grounds : World.Grounds ⟨host, contacts, now⟩) :
    World.Grounds ⟨host, .failed :: contacts, now⟩ := by
  rcases grounds with enough | invalid
  · refine .inl ?_
    simp only [failures] at enough ⊢
    omega
  · exact .inr invalid

theorem World.Assumed.of_failed {τ : Phase} {host contacts now}
    (assumed : World.Assumed ⟨host, contacts, now⟩ τ) :
    World.Assumed ⟨host, .failed :: contacts, now⟩ τ := by
  cases τ with
  | polled row c =>
    cases c with
    | failed =>
      refine ⟨assumed.1, ?_⟩
      have enough := assumed.2
      simp only [failures] at enough ⊢
      omega
    | errored | answered => exact assumed
  | refreshed c =>
    cases c with
    | failed => exact World.Grounds.of_failed assumed
    | errored | answered => exact assumed
  | _ => exact assumed

theorem lastCrlStatus_answered (crl : Option String) (earlier : List Contact) :
    lastCrlStatus (.answered crl :: earlier) = crl.or (lastCrlStatus earlier) := by
  cases crl <;> rfl

/-- A new answer leaves right what is to be written, where it does no harm. -/
theorem World.Assumed.of_answered {τ : Phase} {host contacts now} {crl : Option String}
    (assumed : World.Assumed ⟨host, contacts, now⟩ τ) (noFailure : τ.contact ≠ some .failed)
    (agrees : τ.answered = false ∨ (crl.or (lastCrlStatus contacts) = some "invalid" ↔
      lastCrlStatus contacts = some "invalid")) :
    World.Assumed ⟨host, .answered crl :: contacts, now⟩ τ := by
  cases τ with
  | polled row c =>
    cases c with
    | failed => exact absurd rfl noFailure
    | errored => exact assumed
    | answered other =>
      have agrees := agrees.resolve_left (by simp [Phase.answered, Phase.contact])
      simp only [World.Assumed, lastCrlStatus_answered] at assumed ⊢
      exact assumed.trans agrees.symm
  | refreshed c =>
    cases c with
    | failed => exact absurd rfl noFailure
    | errored => exact assumed
    | answered other =>
      have agrees := agrees.resolve_left (by simp [Phase.answered, Phase.contact])
      simp only [World.Assumed, lastCrlStatus_answered] at assumed ⊢
      exact fun invalid => assumed (agrees.mp invalid)
  | _ => exact assumed

/-- The task has made an attempt, by a poll or by a refresh. -/
inductive Tries (c : Contact) : Phase → Phase → Prop
  | poll (row : HostRow) : Tries c (.selected row) (.polled row c)
  | refresh : Tries c .refreshing (.refreshed c)

variable {c : Contact} {τ τ' : Phase}

theorem Tries.alone (tries : Tries c (σ tid) τ) (fits : Fits σ w) (polls : τ.polls = true) (other : Nat)
    (ne : other ≠ tid) : (σ other).polls = false := by
  refine fits.idle_of_single ?_ ne
  generalize σ tid = τ₀ at tries
  cases tries with
  | poll => rfl
  | refresh => cases polls

theorem Tries.answered (tries : Tries c τ τ') : τ.answered = false := by
  cases tries <;> rfl

theorem Tries.resets (tries : Tries c τ τ') : τ.resets = false := by
  cases tries <;> rfl

theorem Tries.answers {crl : Option String} (tries : Tries (.answered crl) τ τ') :
    τ'.answered = true := by
  cases tries <;> rfl

theorem World.Consistent.of_failed {host contacts now}
    (consistent : World.Consistent ⟨host, contacts, now⟩) :
    World.Consistent ⟨host, .failed :: contacts, now⟩ where
  unreachable is := (consistent.unreachable is).of_failed
  healthy := consistent.healthy

theorem Fits.failed (fits : Fits σ w) (tries : Tries .failed (σ tid) τ)
    (admissible : σ tid = .refreshing → failureThreshold.toInt ≤ failures w.contacts + 1 ∨
      lastCrlStatus w.contacts = some "invalid") :
    Fits (Function.update σ tid τ) { w with contacts := .failed :: w.contacts } := by
  refine fits.update (tries.alone fits) ?_ (fun other _ => (fits.assumed other).of_failed) ?_ ?_
  · have before := fits.assumed tid
    have count : (σ tid).polls = true → (σ tid).resets = false → _ := fits.count_of_polls
    generalize σ tid = τ₀ at tries before count admissible
    cases tries with
    | poll row =>
      have eq : row.consecutiveFailures = w.host.consecutiveFailures := before
      refine ⟨eq, ?_⟩
      have count := count rfl rfl
      rw [eq]
      simp only [failures]
      omega
    | refresh => exact (admissible rfl).imp (by simp [failures]) id
  · rcases fits.count_other tries.resets with right | other
    · refine .inl ?_
      simp only [failures]
      omega
    · exact .inr (.inr other)
  · exact (fits.status_other tries.answered).imp World.Consistent.of_failed .inr

theorem Fits.errored (fits : Fits σ w) (tries : Tries .errored (σ tid) τ) :
    Fits (Function.update σ tid τ) { w with contacts := .errored :: w.contacts } := by
  refine fits.update (tries.alone fits) ?_ (fun other _ => (fits.assumed other).of_errored)
    ((fits.count_other tries.resets).imp_right .inr) ?_
  · have before := fits.assumed tid
    generalize σ tid = τ₀ at tries before
    cases tries with
    | poll row => exact before
    | refresh => trivial
  · refine (fits.status_other tries.answered).imp (fun consistent => ?_) .inr
    exact ⟨consistent.unreachable, consistent.healthy⟩

/-- Beyond the tasks there is none. -/
theorem forall_of_beyond {P : Phase → Prop} {bound : Nat} (beyond : ∀ other, bound ≤ other → σ other = .idle)
    (idle : P .idle) (within : ∀ other < bound, P (σ other)) (other : Nat) : P (σ other) := by
  rcases Nat.lt_or_ge other bound with inside | outside
  · exact within other inside
  · rw [beyond other outside]
    exact idle

theorem Fits.answered {bound : Nat} {crl : Option String} (fits : Fits σ w)
    (tries : Tries (.answered crl) (σ tid) τ) (beyond : ∀ other, bound ≤ other → σ other = .idle)
    (admissible : Admissible σ bound tid w (.answered crl)) :
    Fits (Function.update σ tid τ) { w with contacts := .answered crl :: w.contacts } := by
  obtain ⟨noFailure, agrees, byRefresh, byPoll⟩ := admissible
  refine fits.update (tries.alone fits) ?_ (fun other _ => ?_) ?_ (.inr (.inl ?_))
  · generalize σ tid = τ₀ at tries byRefresh byPoll
    cases tries with
    | poll row =>
      simp only [World.Assumed, lastCrlStatus_answered]
      cases crl with
      | none => simpa using byPoll
      | some crl => simp
    | refresh =>
      simp only [World.Assumed, lastCrlStatus_answered]
      exact (byRefresh rfl).1
  · have noFailure := forall_of_beyond (P := fun τ => τ.contact ≠ some .failed) beyond nofun noFailure other
    refine (fits.assumed other).of_answered noFailure ?_
    rcases agrees with none | same
    · exact .inl (forall_of_beyond (P := fun τ => τ.answered = false) beyond rfl none other)
    · exact .inr same
  · have apart (other) (resets : (σ other).resets = true) : other ≠ tid := fun same => by
      simp [same, tries.resets] at resets
    generalize σ tid = τ₀ at tries byRefresh
    cases tries with
    | poll row => exact .inr (.inl rfl)
    | refresh =>
      rcases (byRefresh rfl).2 with zero | ⟨other, -, resets⟩
      · refine .inl ?_
        simp [zero, failures]
      · exact .inr (.inr ⟨other, apart other resets, resets⟩)
  · exact tries.answers

/-! ### Updates -/

/-- Only a poll depends on the row. -/
theorem World.Assumed.of_host {host contacts now} {host' : Host}
    (assumed : World.Assumed ⟨host, contacts, now⟩ τ) (polls : τ.polls = false) :
    World.Assumed ⟨host', contacts, now⟩ τ := by
  cases τ with
  | polling | selected | polled => cases polls
  | refreshed c => cases c <;> exact assumed
  | idle | refreshing => trivial

theorem Fits.updateHost {row : HostRow} {status : HostHealthStatus} {crlStatus : Option String}
    {count : Int32} (fits : Fits σ w) (at_ : σ tid = .polled row c) (written : Written row c status count) :
    Fits (Function.update σ tid .idle) (w.after (.updateHost status crlStatus count) true) := by
  have polls : (σ tid).polls = true := by rw [at_]; rfl
  have before := fits.assumed tid
  have right := fits.count_of_polls polls
  rw [at_] at before right
  refine fits.update nofun trivial
    (fun other ne => (fits.assumed other).of_host (fits.idle_of_single polls ne)) (.inl ?_) (.inl ?_)
  · cases c with
    | failed =>
      obtain ⟨rfl, -⟩ := written
      exact Int.le_trans (toInt_add_one_le _) before.2
    | errored =>
      obtain ⟨rfl, -⟩ := written
      have same : row.consecutiveFailures = w.host.consecutiveFailures := before
      exact same ▸ right rfl
    | answered crl =>
      obtain ⟨rfl, -⟩ := written
      exact Int.natCast_nonneg _
  · cases c with
    | failed =>
      obtain ⟨rfl, notHealthy, enough⟩ := written
      refine ⟨fun is => .inl ?_, fun is => absurd is notHealthy⟩
      have reached := Int32.le_iff_toInt_le.mp (enough is)
      exact Int.le_trans reached (Int.le_trans (toInt_add_one_le _) before.2)
    | errored =>
      obtain ⟨-, rfl⟩ := written
      exact ⟨nofun, nofun⟩
    | answered crl =>
      obtain ⟨-, unreachable, healthy⟩ := written
      exact ⟨fun is => .inr (before.mp (unreachable is)), fun is invalid => healthy is (before.mpr invalid)⟩

theorem Fits.updateHealthStatus (fits : Fits σ w) (at_ : σ tid = .refreshed c) :
    Fits (Function.update σ tid .idle) (w.after (.updateHealthStatus c.status) true) := by
  have before := fits.assumed tid
  have resets : (σ tid).resets = false := by rw [at_]; rfl
  rw [at_] at before
  refine fits.update nofun trivial (fun other _ => ?_) ((fits.count_other resets).imp_right .inr) (.inl ?_)
  · have assumed := fits.assumed other
    -- the count in the row is the same
    cases eq : σ other with
    | polled row c => rw [eq] at assumed; cases c <;> exact assumed
    | refreshed c => rw [eq] at assumed; cases c <;> exact assumed
    | selected row => rw [eq] at assumed; exact assumed
    | idle | polling | refreshing => trivial
  · cases c with
    | failed => exact ⟨fun _ => before, nofun⟩
    | errored => exact ⟨nofun, nofun⟩
    | answered crl => exact ⟨nofun, fun _ => before⟩

/-! ### Any operation -/

theorem Fits.stay (fits : Fits σ w) (same : σ tid = τ) : Fits (Function.update σ tid τ) w := by
  rwa [← same, Function.update_eq_self]

theorem Fits.op {bound : Nat} {o : Op} {r : o.Resp} (fits : Fits σ w)
    (permits : (σ tid).Permits o) (answers : ∃ a, answer w o a = some r)
    (beyond : ∀ other, bound ≤ other → σ other = .idle)
    (admissible : ∀ c ∈ contact? o r, Admissible σ bound tid w c)
    (kept : PatchManager.Health.failed o r = true → (σ tid).answered = false) :
    Fits (Function.update σ tid ((σ tid).next o r)) (w.after o r) := by
  have attempt {c τ} (eq : contact? o r = some c) (tries : Tries c (σ tid) τ) :
      Fits (Function.update σ tid τ) { w with contacts := c :: w.contacts } := by
    cases c with
    | failed => exact fits.failed tries (admissible _ eq)
    | errored => exact fits.errored tries
    | answered crl => exact fits.answered tries beyond (admissible _ eq)
  cases eq : σ tid with
  | idle => simp [eq, Phase.Permits] at permits
  | polling =>
    have silent : (σ tid).answered = false := by rw [eq]; rfl
    cases o with
    | loadAgentCerts =>
      cases r with
      | false => exact fits.quiet nofun trivial silent
      | true => exact fits.stay eq
    | selectHosts =>
      cases r with
      | none => exact fits.quiet nofun trivial silent
      | some row =>
        refine fits.quiet (fun _ _ => fits.idle_of_single (by rw [eq]; rfl)) ?_ silent
        obtain ⟨a, selected⟩ := answers
        cases a with
        | ok =>
          obtain rfl := Option.some.inj (Option.some.inj selected)
          exact rfl
        | fails | reply => cases selected
    | _ => simp [eq, Phase.Permits] at permits
  | selected row =>
    cases o with
    | newClient =>
      cases r with
      | false => exact attempt rfl (by rw [eq]; exact .poll row)
      | true => exact fits.stay eq
    | health => exact attempt rfl (by rw [eq]; exact .poll row)
    | _ => simp [eq, Phase.Permits] at permits
  | polled row c =>
    cases o with
    | utcNow | insertHealthData => exact fits.stay eq
    | updateHost status crl count =>
      cases r with
      | true => exact fits.updateHost eq (by rw [eq] at permits; exact permits)
      | false => exact fits.quiet nofun trivial (kept rfl)
    | _ => simp [eq, Phase.Permits] at permits
  | refreshing =>
    have silent : (σ tid).answered = false := by rw [eq]; rfl
    cases o with
    | selectHost | loadAgentCerts =>
      cases r with
      | false => exact fits.quiet nofun trivial silent
      | true => exact fits.stay eq
    | newClient =>
      cases r with
      | false => exact attempt rfl (by rw [eq]; exact .refresh)
      | true => exact fits.stay eq
    | health => exact attempt rfl (by rw [eq]; exact .refresh)
    | _ => simp [eq, Phase.Permits] at permits
  | refreshed c =>
    cases o with
    | insertHealthData => exact fits.stay eq
    | updateHealthStatus status =>
      cases r with
      | true =>
        obtain rfl : status = c.status := by rw [eq] at permits; exact permits
        exact fits.updateHealthStatus eq
      | false => exact fits.quiet nofun trivial (kept rfl)
    | _ => simp [eq, Phase.Permits] at permits

theorem Fits.passed (fits : Fits σ w) (now : Time) : Fits σ { w with now := now } where
  single := fits.single
  assumed tid := by
    have assumed := fits.assumed tid
    cases eq : σ tid with
    | polled row c => rw [eq] at assumed; cases c <;> exact assumed
    | refreshed c => rw [eq] at assumed; cases c <;> exact assumed
    | selected row => rw [eq] at assumed; exact assumed
    | idle | polling | refreshing => trivial
  count := fits.count
  status := fits.status.imp_left fun consistent => ⟨consistent.unreachable, consistent.healthy⟩

/-- All tasks are over, and none had an answer to write. -/
theorem Fits.stopped (fits : Fits σ w) (silent : ∀ tid, (σ tid).answered = false) :
    Fits (fun _ => .idle) w where
  single := nofun
  assumed _ := trivial
  count := .inl <| fits.count.resolve_right fun ⟨tid, resets⟩ => by
    have answered := answered_of_resets resets
    simp [silent tid] at answered
  status := .inl <| fits.status.resolve_right fun ⟨tid, answered⟩ => by
    simp [silent tid] at answered

end step

/-! ## Runs -/

theorem relies_phases (l : Label Op Op.Resp Fn) : phases.Relies l := by
  cases l <;> trivial

/-- A task that polls is a poll cycle that is not over. -/
theorem polls_of_run {s t : State} {h : History} (run : Run worker s h t) (initial : Initial s)
    {tid : Nat} (polls : (phase h tid).polls = true) (entered : canEnter t .pollCycle = true) : False := by
  rcases Nat.lt_or_ge tid t.tasks.length with inside | beyond
  · have there := List.getElem?_eq_getElem inside
    have root := run.ghost_root (C := phases) (P := fun f σ => σ.polls = true → f = .pollCycle)
      initial.tasks (fun f => by cases f <;> simp [phases, Phase.polls]) (fun _ => nofun)
      (fun _ _ _ _ before polls => before (polls_next polls)) there polls
    have along := (run.guarantees keeps_phases (fun e _ => relies_phases e.label)
      (Sys.along_of_empty initial.tasks)).1 tid _ there
    have done := List.all_eq_true.mp entered _ (List.getElem_mem inside)
    simp only [root, bne_self_eq_false, Bool.false_or] at done
    rw [isDone_eq_true.mp done] at along
    have idle : phase h tid = .idle := along
    simp [idle, Phase.polls] at polls
  · have idle : phase h tid = .idle := run.ghost_idle beyond
    simp [idle, Phase.polls] at polls

theorem fits_of_run {s t : State} {h : History} (run : Run worker s h t) (initial : Initial s)
    (careful : ∀ h₁ e h₂, h = h₁ ++ e :: h₂ → Careful (phase h₁) e) : Fits (phase h) t.world := by
  induction run with
  | nil =>
    refine ⟨nofun, fun _ => trivial, .inl ?_, .inl ⟨?_, ?_⟩⟩
    · simp [initial.consecutiveFailures]
    · simp [initial.healthStatus]
    · simp [initial.healthStatus]
  | @snoc h t u l run step ih =>
    have fits := ih fun h₁ e h₂ eq => careful h₁ e (h₂ ++ [⟨t, l, u⟩]) (by simp [eq])
    have careful := careful h ⟨t, l, u⟩ [] rfl
    have permitted := ((run.snoc step).guarantees keeps_phases (fun e _ => relies_phases e.label)
      (Sys.along_of_empty initial.tasks)).2 h ⟨t, l, u⟩ [] rfl
    have beyond (other) (outside : t.tasks.length ≤ other) : phase h other = .idle :=
      run.ghost_idle outside
    have within := run.tasks_within initial.tasks body_within
    rw [phase, Machine.ghost_snoc]
    cases step with
    | op at_ done =>
      obtain ⟨answers, rfl⟩ := exec_iff.mp done
      exact fits.op permitted answers beyond careful.1 careful.2
    | spawn at_ => exact (within _ (List.mem_of_getElem? at_)).1.elim
    | jump at_ => exact (within _ (List.mem_of_getElem? at_)).elim
    | @enter f w called =>
      obtain ⟨entered, rfl⟩ := called
      have silent : (phase h t.tasks.length).answered = false := by rw [beyond _ (Nat.le_refl _)]; rfl
      refine fits.quiet (fun polls other _ => ?_) ?_ silent
      · cases f with
        | pollCycle =>
          by_contra busy
          exact polls_of_run run initial (by simpa using busy) entered
        | refresh => cases polls
      · cases f <;> trivial
    | drift moved =>
      obtain ⟨passed, rfl⟩ := moved
      exact fits.passed _
    | restart =>
      have stopped : worker.ghostStep phases (phase h) ⟨t, .restart, ⟨worker.restart t.world,
          worker.survivors t.tasks⟩⟩ = fun _ => .idle := by
        funext tid
        rcases Nat.lt_or_ge tid t.tasks.length with inside | outside
        · exact if_pos (by rw [List.getElem?_eq_getElem inside]; rfl)
        · refine (if_neg ?_).trans (beyond tid outside)
          rw [List.getElem?_eq_none outside]
          exact Bool.false_ne_true
      have silent (tid) : (phase h tid).answered = false :=
        forall_of_beyond (P := fun τ => τ.answered = false) beyond rfl careful tid
      exact stopped ▸ fits.stopped silent
    | abandon at_ abandons => exact fits.quiet nofun trivial careful

/-- The status of a host agrees with what is known of its agent, once every answer is written. -/
theorem status_consistent {s t : State} {h : History} (run : Run worker s h t) (initial : Initial s)
    (careful : ∀ h₁ e h₂, h = h₁ ++ e :: h₂ → Careful (phase h₁) e)
    (settled : ∀ tid < t.tasks.length, (phase h tid).answered = false) : t.world.Consistent := by
  refine (fits_of_run run initial careful).status.resolve_right fun ⟨tid, answered⟩ => ?_
  have beyond (other) (outside : t.tasks.length ≤ other) : phase h other = .idle :=
    run.ghost_idle outside
  have silent := forall_of_beyond (P := fun τ => τ.answered = false) beyond rfl settled tid
  simp [silent] at answered

def fresh : State := ⟨{ host := { registeredAt := 0 }, now := 0 }, []⟩

theorem fresh_initial : Initial fresh := ⟨rfl, rfl, rfl, rfl⟩

/-- One task's moves: up to its attempt, which ends as `r`, and from there to its update. -/
def toAttempt (tid : Nat) (r : Except AgentClientError (Option String)) : List (Move player) :=
  [.run tid .ok, .run tid .ok, .run tid .ok, .run tid (.reply r)]

def toUpdate (tid : Nat) : List (Move player) := [.run tid .ok, .run tid .ok]

/-- The agent answers, and then three polls fail, the last with a refresh in between. -/
def carefulMoves : List (Move player) :=
  .call .pollCycle :: toAttempt 0 (.ok (some "valid")) ++ toUpdate 0 ++
  .call .pollCycle :: toAttempt 1 (.error .timeout) ++ toUpdate 1 ++
  .call .pollCycle :: toAttempt 2 (.error .timeout) ++ toUpdate 2 ++
  .call .pollCycle :: .call .refresh :: toAttempt 3 (.error .timeout) ++
  toAttempt 4 (.error .timeout) ++ toUpdate 4 ++ toUpdate 3

def carefulAt (before : History) (e : Event World Op Op.Resp Fn) : Bool :=
  decide (Careful (phase before) e)

theorem status_consistent_unreachable :
    (Player.last fresh (player.history fresh carefulMoves)).world.host.healthStatus = .unreachable ∧
      (Player.last fresh (player.history fresh carefulMoves)).world.Consistent := by
  have checks : checksAll carefulAt (player.history fresh carefulMoves) = true := by decide +kernel
  refine ⟨by decide +kernel, ?_⟩
  exact status_consistent (player.run_of_play (by decide +kernel)) fresh_initial
    (fun _ _ _ split => of_decide_eq_true (test_of_checksAll checks split)) (by decide +kernel)

/-- A refresh whose one attempt ends without an answer in time. -/
def refreshMoves : List (Move player) :=
  .call .refresh :: toAttempt 0 (.error .timeout) ++ toUpdate 0

theorem refresh_unreachable :
    ¬ ∀ (s t : State) (h : History), Run worker s h t → Initial s →
      (∀ tid < t.tasks.length, (phase h tid).answered = false) → t.world.Consistent := by
  intro law
  have run := player.run_of_play (show (player.play fresh refreshMoves).isSome = true by decide +kernel)
  have consistent := law _ _ _ run fresh_initial (by decide +kernel)
  have grounds := consistent.unreachable (by decide +kernel)
  rcases grounds with enough | invalid
  · exact absurd enough (by decide +kernel)
  · exact absurd invalid (by decide +kernel)

end PatchManager.Health
