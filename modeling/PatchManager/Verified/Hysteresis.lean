import PatchManager.Conc.Among
import PatchManager.Worker.HealthPoller

/-! # What a sequence of polls makes of a host

A poll asks the agent and then records what it has found.  The rules for the revocation list and
the hysteresis are followed by each poll on its own (`Poll.From.outcome`); over a sequence the
stored count is the number of failed polls since the last healthy one, as long as it fits into an
`i32` and no poll that changes it goes unstored.

Main results:

* `polls_meet_iff`: the law after every poll of a sequence, under that condition.
* `polls_overflow`: after 2³¹ failed polls the count is negative.
-/

namespace PatchManager.Health

open PatchManager.Conc

/-! ## One poll -/

/-- `poll_host_health` up to the natural status. -/
def askAgent : Proc (HostHealthStatus × Option String) := do
  if ← perform .newClient then
    match ← perform .health with
    | .ok crlStatus => return (.healthy, crlStatus)
    | .error .timeout => return (.unreachable, none)
    | .error (.connect _) => return (.unreachable, none)
    | .error _ => return (.degraded, none)
  else return (.unreachable, none)

/-- `poll_host_health` from there on. -/
def recordPoll (host : HostRow) (natural : HostHealthStatus) (crlStatus : Option String) : Proc HostHealthStatus := do
  let effective ← applyCrlHealthRules natural crlStatus host.registeredAt
  let (failures, status) := applyHysteresis natural effective host.consecutiveFailures
  let _ ← perform (.insertHealthData natural)
  let _ ← perform (.updateHost status crlStatus failures)
  return status

theorem pollHostHealth_eq (host : HostRow) :
    pollHostHealth host = askAgent.bind fun (natural, crlStatus) => recordPoll host natural crlStatus := rfl

structure Poll where
  natural : HostHealthStatus
  crlStatus : Option String
  /-- the status that the poll comes to -/
  status : HostHealthStatus
  /-- the row is updated -/
  stored : Bool
  after : World

def Op.stores : (o : Op) → o.Resp → Option Bool
  | .updateHost _ _ _, done => some done
  | _, _ => none

def Poll.exec (p : Poll) (w : World) (o : Op) (r : o.Resp) (w' : World) : Prop :=
  worker.exec w o r w' ∧ ∀ done ∈ o.stores r, done = p.stored

/-- The poll begins to record with this row.  What cannot be reached reports no list. -/
structure Poll.From (p : Poll) (w : World) : Prop where
  silent : p.natural = .unreachable → p.crlStatus = none
  recorded : (recordPoll w.host.toHostRow p.natural p.crlStatus).Among p.exec worker.drift w p.after p.status

theorem askAgent_ends {p : Poll} {w w' : World} {read : HostHealthStatus × Option String}
    (asked : askAgent.Among p.exec worker.drift w w' read) :
    (read.1 = .unreachable → read.2 = none) ∧ w'.host = w.host := by
  obtain ⟨built, w₁, w₂, ⟨ran, -⟩, ⟨_, rfl⟩, rest⟩ := asked.op_inv
  obtain ⟨-, rfl⟩ := exec_iff.mp ran
  cases built with
  | false =>
    obtain ⟨rfl, rfl⟩ := rest.ret_inv
    exact ⟨fun _ => rfl, rfl⟩
  | true =>
    obtain ⟨reply, w₁, w₂, ⟨ran, -⟩, ⟨_, rfl⟩, rest⟩ := rest.op_inv
    obtain ⟨-, rfl⟩ := exec_iff.mp ran
    cases reply with
    | ok crl =>
      obtain ⟨rfl, rfl⟩ := rest.ret_inv
      exact ⟨nofun, rfl⟩
    | error e =>
      cases e <;> obtain ⟨rfl, rfl⟩ := rest.ret_inv <;> exact ⟨fun _ => rfl, rfl⟩

/-- Every call of `poll_host_health` is such a poll, with the readings that its request has given
    and the row it was called with. -/
theorem pollHostHealth_from {p : Poll} {w : World}
    (polled : (pollHostHealth w.host.toHostRow).Among p.exec worker.drift w p.after p.status) :
    ∃ natural crlStatus w', w'.host = w.host ∧ Poll.From { p with natural, crlStatus } w' := by
  rw [pollHostHealth_eq] at polled
  obtain ⟨⟨natural, crlStatus⟩, w', asked, recorded⟩ := polled.bind_inv
  obtain ⟨silent, host⟩ := askAgent_ends asked
  exact ⟨natural, crlStatus, w', host, silent, host ▸ recorded⟩

/-- What the rules for the list make of a status. -/
structure Ruled (natural : HostHealthStatus) (crlStatus : Option String) (effective : HostHealthStatus) : Prop where
  unreachable : effective = .unreachable ↔ natural = .unreachable ∨ crlStatus = some "invalid"
  healthy : effective = .healthy → natural = .healthy

theorem ruled_of_valid {natural : HostHealthStatus} {crl : String} (valid : crl ≠ "invalid") (lapsed : Prop)
    [Decidable lapsed] :
    Ruled natural (some crl) (if lapsed ∧ natural = .healthy then .degraded else natural) := by
  split
  case isTrue both => exact ⟨by simp [both.2, valid], nofun⟩
  case isFalse => exact ⟨by simp [valid], id⟩

theorem applyCrlHealthRules_ends {p : Poll} {w w' : World} {natural effective : HostHealthStatus}
    {crlStatus : Option String} {registeredAt : Time}
    (ends : (applyCrlHealthRules natural crlStatus registeredAt).Among p.exec worker.drift w w' effective) :
    Ruled natural crlStatus effective ∧ w'.host = w.host := by
  cases crlStatus with
  | none =>
    obtain ⟨rfl, rfl⟩ := ends.ret_inv
    exact ⟨⟨by simp, id⟩, rfl⟩
  | some crl =>
    simp only [applyCrlHealthRules] at ends
    split at ends
    · next invalid =>
      obtain ⟨rfl, rfl⟩ := ends.ret_inv
      exact ⟨⟨by simp [invalid], nofun⟩, rfl⟩
    · next valid =>
      split at ends
      · obtain ⟨rfl, rfl⟩ := ends.ret_inv
        exact ⟨by simpa using ruled_of_valid valid True, rfl⟩
      · split at ends
        · obtain ⟨now, w₁, w₂, ⟨ran, -⟩, ⟨_, rfl⟩, rest⟩ := ends.op_inv
          obtain ⟨-, rfl⟩ := exec_iff.mp ran
          obtain ⟨rfl, rfl⟩ := rest.ret_inv
          exact ⟨ruled_of_valid valid (now - registeredAt > microsPerDay), rfl⟩
        · obtain ⟨rfl, rfl⟩ := ends.ret_inv
          exact ⟨⟨by simp [valid], id⟩, rfl⟩

/-- The count after a poll with this status. -/
def counted (natural : HostHealthStatus) (current : Int32) : Int32 :=
  match natural with
  | .healthy => 0
  | .unreachable => current + 1
  | _ => current

theorem applyHysteresis_count (natural effective : HostHealthStatus) (current : Int32) :
    (applyHysteresis natural effective current).1 = counted natural current := by
  cases natural <;> rfl

/-- Only what could not be reached is held back, and only below the threshold. -/
theorem applyHysteresis_status {natural effective : HostHealthStatus} {crlStatus : Option String}
    (ruled : Ruled natural crlStatus effective) (silent : natural = .unreachable → crlStatus = none) (current : Int32) :
    ((applyHysteresis natural effective current).2 = .unreachable ↔
      natural = .unreachable ∧ counted natural current ≥ failureThreshold ∨
        natural ≠ .unreachable ∧ crlStatus = some "invalid") ∧
      ((applyHysteresis natural effective current).2 = .healthy → natural = .healthy) := by
  by_cases down : natural = .unreachable
  · have lost : effective = .unreachable := ruled.unreachable.mpr (.inl down)
    subst down lost
    simp only [applyHysteresis, counted, and_self, if_true]
    split <;> simp_all
  · have kept : (applyHysteresis natural effective current).2 = effective := by simp [applyHysteresis, down]
    rw [kept]
    exact ⟨by simpa [down] using ruled.unreachable, ruled.healthy⟩

/-- What one poll does: the count and the status it comes to, written unless the update fails. -/
structure Poll.Outcome (p : Poll) (w : World) : Prop where
  count : p.after.host.consecutiveFailures =
    if p.stored = true then counted p.natural w.host.consecutiveFailures else w.host.consecutiveFailures
  written : p.stored = true → p.after.host.healthStatus = p.status
  unreachable : p.status = .unreachable ↔
    p.natural = .unreachable ∧ counted p.natural w.host.consecutiveFailures ≥ failureThreshold ∨
      p.natural ≠ .unreachable ∧ p.crlStatus = some "invalid"
  healthy : p.status = .healthy → p.natural = .healthy

theorem Poll.From.outcome {p : Poll} {w : World} (begun : p.From w) : p.Outcome w := by
  obtain ⟨effective, w₁, ends, rest⟩ := begun.recorded.bind_inv
  obtain ⟨ruled, host⟩ := applyCrlHealthRules_ends ends
  have rules := applyHysteresis_status ruled begun.silent w.host.consecutiveFailures
  have count := applyHysteresis_count p.natural effective w.host.consecutiveFailures
  generalize applyHysteresis p.natural effective w.host.consecutiveFailures = result at rest rules count
  obtain ⟨failures, status⟩ := result
  obtain ⟨_, _, w₂, ⟨ran, -⟩, ⟨_, rfl⟩, rest⟩ := rest.op_inv
  obtain ⟨-, rfl⟩ := exec_iff.mp ran
  obtain ⟨done, w₂, w₃, ⟨ran, stored⟩, ⟨_, rfl⟩, rest⟩ := rest.op_inv
  obtain ⟨-, rfl⟩ := exec_iff.mp ran
  obtain ⟨after, rfl⟩ := rest.ret_inv
  obtain rfl := stored done rfl
  have row : p.after.host = w.host.after (.updateHost p.status p.crlStatus failures) p.stored := by
    rw [after, ← host]
    rfl
  refine ⟨?_, ?_, count ▸ rules.1, rules.2⟩
  · rw [row, ← count]
    cases p.stored <;> rfl
  · intro stored
    rw [row, stored]
    rfl

/-! ## A sequence of polls -/

/-- The world that a sequence leaves, the last poll first. -/
def standing (start : World) : List Poll → World
  | [] => start
  | p :: _ => p.after

/-- Between two polls nothing writes the row. -/
inductive Sequence (start : World) : List Poll → Prop
  | nil : Sequence start []
  | poll {p : Poll} {earlier : List Poll} {w : World} (before : Sequence start earlier)
      (row : w.host = (standing start earlier).host) (begun : p.From w) : Sequence start (p :: earlier)

/-- The unreachable polls since the last healthy one. -/
def number : List Poll → Nat
  | [] => 0
  | p :: earlier =>
    match p.natural with
    | .healthy => 0
    | .unreachable => number earlier + 1
    | _ => number earlier

/-- What is asked of a poll that is preceded by others. -/
structure Poll.Meets (p : Poll) (earlier : List Poll) : Prop where
  count : p.after.host.consecutiveFailures.toInt = number (p :: earlier)
  written : p.stored = true → p.after.host.healthStatus = p.status
  unreachable : p.status = .unreachable ↔
    p.natural = .unreachable ∧ failureThreshold.toInt ≤ number (p :: earlier) ∨
      p.natural ≠ .unreachable ∧ p.crlStatus = some "invalid"
  healthy : p.status = .healthy → p.natural = .healthy

/-- The number fits into the column, and it is stored where it changes. -/
def Poll.Fits (p : Poll) (earlier : List Poll) : Prop :=
  number (p :: earlier) < 2 ^ 31 ∧ (p.stored = true ∨ number (p :: earlier) = number earlier)

theorem toInt_counted {p : Poll} {earlier : List Poll} {current : Int32} (same : current.toInt = number earlier)
    (fits : number (p :: earlier) < 2 ^ 31) : (counted p.natural current).toInt = number (p :: earlier) := by
  rw [number] at fits ⊢
  cases read : p.natural with
  | healthy => rfl
  | unreachable =>
    simp only [read] at fits
    simp only [counted]
    rw [Int32.toInt_add, show (1 : Int32).toInt = 1 from rfl, Int.bmod_def]
    omega
  | degraded | pending => exact same

/-- With the count right before a poll, the law holds after it exactly when the new number fits. -/
theorem Poll.Outcome.meets_iff {p : Poll} {earlier : List Poll} {w : World} (outcome : p.Outcome w)
    (same : w.host.consecutiveFailures.toInt = number earlier) : p.Meets earlier ↔ p.Fits earlier := by
  constructor
  · intro meets
    have count := meets.count
    constructor
    · have below := p.after.host.consecutiveFailures.toInt_lt
      omega
    · by_cases stored : p.stored = true
      · exact .inl stored
      · rw [outcome.count, if_neg stored, same] at count
        exact .inr (Int.ofNat_inj.mp count.symm)
  · intro ⟨fits, stored⟩
    have count := toInt_counted same fits
    refine ⟨?_, outcome.written, ?_, outcome.healthy⟩
    · rw [outcome.count]
      split
      case isTrue => exact count
      case isFalse lost => rw [same, stored.resolve_left lost]
    · rw [outcome.unreachable, ge_iff_le, Int32.le_iff_toInt_le, count]

/-- After every poll of a sequence that starts with the count 0, the count is the number of
    unreachable polls since the last healthy one and the status is the one that the rules give,
    exactly when at every poll the number fits. -/
theorem polls_meet_iff {start : World} {polls : List Poll} (zero : start.host.consecutiveFailures = 0)
    (sequence : Sequence start polls) :
    (∀ p earlier, p :: earlier <:+ polls → p.Meets earlier) ↔ ∀ p earlier, p :: earlier <:+ polls → p.Fits earlier := by
  induction sequence with
  | nil => simp
  | @poll p earlier w before row begun ih =>
    have split (P : Poll → List Poll → Prop) : (∀ q rest, q :: rest <:+ p :: earlier → P q rest) ↔
        P p earlier ∧ ∀ q rest, q :: rest <:+ earlier → P q rest := by
      simp only [List.suffix_cons_iff, List.cons.injEq, or_imp, forall_and]
      simp
    rw [split, split, ih, and_congr_left_iff]
    intro fits
    refine begun.outcome.meets_iff ?_
    rw [row]
    cases earlier with
    | nil => rw [standing, zero]; rfl
    | cons q rest => exact (ih.mpr fits q rest List.suffix_rfl).count

/-! ## Polls that never reach the agent -/

/-- A failed contact, recorded. -/
def downPoll (w : World) : Poll :=
  let (failures, status) := applyHysteresis .unreachable .unreachable w.host.consecutiveFailures
  { natural := .unreachable, crlStatus := none, status, stored := true
    after := (w.after (.insertHealthData .unreachable) true).after (.updateHost status none failures) true }

def downPolls (start : World) : Nat → List Poll
  | 0 => []
  | n + 1 => downPoll (standing start (downPolls start n)) :: downPolls start n

theorem drift_refl (w : World) : worker.drift w w := ⟨0, by simp⟩

theorem downPoll_from (w : World) : (downPoll w).From w where
  silent _ := rfl
  recorded := by
    have insert : (downPoll w).exec w (.insertHealthData .unreachable) true (w.after (.insertHealthData .unreachable) true) :=
      ⟨exec_iff.mpr ⟨⟨.ok, rfl⟩, rfl⟩, nofun⟩
    have update (w' : World) (status : HostHealthStatus) (failures : Int32) :
        (downPoll w).exec w' (.updateHost status none failures) true (w'.after (.updateHost status none failures) true) := by
      refine ⟨exec_iff.mpr ⟨⟨.ok, rfl⟩, rfl⟩, fun done eq => ?_⟩
      cases eq
      rfl
    exact .op insert (drift_refl _) (.op (update _ _ _) (drift_refl _) .ret)

theorem downPolls_sequence (start : World) (n : Nat) : Sequence start (downPolls start n) := by
  induction n with
  | zero => exact .nil
  | succ n ih => exact .poll ih rfl (downPoll_from _)

theorem number_downPolls (start : World) (n : Nat) : number (downPolls start n) = n := by
  induction n with
  | zero => rfl
  | succ n ih =>
    rw [downPolls, number, ih]
    rfl

theorem downPolls_fit {start : World} {n : Nat} (small : n < 2 ^ 31) {p : Poll} {earlier : List Poll}
    (suffix : p :: earlier <:+ downPolls start n) : p.Fits earlier := by
  induction n with
  | zero => simp [downPolls] at suffix
  | succ n ih =>
    obtain same | later := List.suffix_cons_iff.mp suffix
    · obtain ⟨rfl, rfl⟩ := List.cons.inj same
      refine ⟨?_, .inl rfl⟩
      rw [← downPolls, number_downPolls]
      exact small
    · exact ih (by omega) later

def registered : World := { host := { registeredAt := 0 }, now := 0 }

/-- The third failed poll. -/
theorem polls_meet_third : (downPoll (standing registered (downPolls registered 2))).Meets (downPolls registered 2) :=
  (polls_meet_iff rfl (downPolls_sequence registered 3)).mpr
    (fun _ _ suffix => downPolls_fit (by decide) suffix) _ _ List.suffix_rfl

/-- No `i32` is the number of so many polls. -/
theorem downPoll_overflows {n : Nat} (large : 2 ^ 31 ≤ n + 1) (start : World) :
    ¬(downPoll (standing start (downPolls start n))).Meets (downPolls start n) := by
  intro meets
  have count := meets.count
  have below := (downPoll (standing start (downPolls start n))).after.host.consecutiveFailures.toInt_lt
  rw [← downPolls, number_downPolls] at count
  omega

theorem polls_overflow :
    Sequence registered (downPolls registered (2 ^ 31 - 1 + 1)) ∧
      ¬(∀ p earlier, p :: earlier <:+ downPolls registered (2 ^ 31 - 1 + 1) → p.Meets earlier) :=
  ⟨downPolls_sequence registered _, fun meets =>
    downPoll_overflows (Nat.le_refl (2 ^ 31)) registered (meets _ _ List.suffix_rfl)⟩

end PatchManager.Health
