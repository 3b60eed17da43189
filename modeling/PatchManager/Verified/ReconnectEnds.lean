import PatchManager.Conc.Program
import PatchManager.Engine.Schedule
import PatchManager.Verified.Skeleton

/-! # When the reconnect loop ends

`reconnect_confirm_self_upgrade` samples the agent's version until the upgrade has landed,
a fatal error occurs or `elapsed` has reached the configured limit.  The counter is a `u64`
that grows by the configured interval, which may be zero or large, so the limit need not
be reached within its range.

Main results:

* `reconnect_ends_iff`: for given settings and given answers, the loop ends with one verdict
  and without an overflow if and only if, within the range of the counter, the limit is
  reached or a sample decides.
* `reconnect_always_ends_iff`: the settings for which it does so whatever the samples are.
-/

namespace PatchManager

open PatchManager.Conc

/-! ## The property -/

/-- The operations only one of the two ways out performs, once: the statement that marks the
    row succeeded, and the read `handle_host_failure` begins with. -/
def Op.isVerdict : Op → Bool
  | sql (.updateHosts (.setSucceeded _ _)) | sql (.select (.retryRow _)) => true
  | _ => false

/-- How often a verdict has been reached. -/
def verdicts (heard : List (Exchange Op Op.Resp)) : Nat := heard.countP fun x => x.1.isVerdict

@[simp] theorem verdicts_append (heard told : List (Exchange Op Op.Resp)) :
    verdicts (heard ++ told) = verdicts heard + verdicts told := List.countP_append

@[simp] theorem verdicts_nil : verdicts [] = 0 := rfl

@[simp] theorem verdicts_cons (x : Exchange Op Op.Resp) (told : List (Exchange Op Op.Resp)) :
    verdicts (x :: told) = verdicts told + if x.1.isVerdict then 1 else 0 := List.countP_cons

/-- The addition at the head of a round stays within `u64`. -/
def Fn.addsInRange (cfg : WorkerConfig) : Fn → Prop
  | reconnectLoop _ _ _ _ elapsed =>
    elapsed.toNat + cfg.selfUpgradeReconnectPollIntervalSecs.toNat < 2 ^ 64
  | _ => True

/-- The loop ends, no round overflows the counter, and it has ended in exactly one verdict. -/
def EndsOnce (cfg : WorkerConfig) (answers : EngineAnswers) (c : EngineCourse) : Prop :=
  ∃ n, (c.after (body cfg) answers n).rest = .ret () ∧
    (∀ f ∈ (c.after (body cfg) answers n).called, f.addsInRange cfg) ∧
    verdicts (c.after (body cfg) answers n).heard = 1

/-- The course of `reconnect_confirm_self_upgrade` from its call. -/
def reconnectCourse (row : PatchJobHostRunning) (client : AgentClient) : EngineCourse :=
  ⟨[], [], reconnectConfirmSelfUpgrade row client⟩

/-! ## The condition -/

section condition

variable (row : PatchJobHostRunning) (client : AgentClient) (answers : EngineAnswers)

/-- The target version, as the first operation reads it. -/
def readTargetVersion : Option String := ((targetVersionOf row.jobId).result (answers 0)).join

/-- The old version, as the second operation reads it. -/
def readOldVersion : Option String := ((oldVersionOf row.hostId).result (answers 1)).join

/-- The sample of round `n`.  Each round sleeps before it asks for the agent's health. -/
def sample (n : Nat) : Except AgentClientError HealthData := answers (2 * n + 3) (.health client)

/-- The version in the sample of round `n` settles the upgrade, or its error is fatal. -/
def Decides (n : Nat) : Prop :=
  decideVersionSample ((sample client answers n).map HealthData.version)
    (readTargetVersion row answers) (readOldVersion row answers) ≠ .retry

/-- In some round that the counter can count, the limit is reached or the sample decides. -/
def DecidedInRange (cfg : WorkerConfig) : Prop :=
  ∃ n, (n + 1) * cfg.selfUpgradeReconnectPollIntervalSecs.toNat < 2 ^ 64 ∧
    (cfg.selfUpgradeReconnectTimeoutSecs.toNat ≤
        (n + 1) * cfg.selfUpgradeReconnectPollIntervalSecs.toNat ∨
      Decides row client answers n)

end condition

/-! ## The two ways out -/

theorem not_isVerdict_of_kind {o : Op} (writes : o.kind ≠ .setSucceeded)
    (reads : o.kind ≠ .readFailure) : o.isVerdict = false := by
  unfold Op.isVerdict
  split
  · exact absurd rfl writes
  · exact absurd rfl reads
  · rfl

/-- The kinds of operations that follow a verdict. -/
def afterVerdict : OpKind → Bool
  | .readRollUp | .rollUp | .fail | .read | .other => true
  | _ => false

/-- The operations after a verdict are of these kinds, and no function is called. -/
abbrev WindsUp {α : Type} (p : Proc α) : Prop :=
  p.Within (fun o => afterVerdict o.kind = true) (fun _ => True) fun _ => False

theorem windsUp_follows : Follows WindsUp afterVerdict (fun _ => True) (fun _ => False) where
  toClosed := closed_within _ _ _
  other := rfl
  read := rfl

theorem syncJobStatus_windsUp (jobId : Uuid) : WindsUp (syncJobStatus jobId) :=
  syncJobStatus_follows windsUp_follows rfl rfl (fun _ _ _ _ => trivial) jobId

section ways

variable {cfg : WorkerConfig} {answers : EngineAnswers} {c : EngineCourse}
  {heard : List (Exchange Op Op.Resp)} {called : List Fn}

theorem EndsOnce.of_after {n : Nat} (ends : EndsOnce cfg answers (c.after (body cfg) answers n)) :
    EndsOnce cfg answers c := by
  obtain ⟨m, ends⟩ := ends
  rw [← Course.after_add] at ends
  exact ⟨n + m, ends⟩

/-- A verdict, and what follows it, which comes to an end without another one. -/
theorem endsOnce_of_verdict {o : Op} {next : o.Resp → Proc Unit} (verdict : o.isVerdict = true)
    (windsUp : ∀ r, WindsUp (next r)) (inRange : ∀ f ∈ called, f.addsInRange cfg)
    (open_ : verdicts heard = 0) : EndsOnce cfg answers ⟨heard, called, .op o next⟩ := by
  obtain ⟨n, told, value, there, kinds⟩ :=
    (windsUp (answers heard.length o)).finishes (body cfg) answers .ret
      (heard ++ [⟨o, answers heard.length o⟩]) called
  have silent : verdicts told = 0 := by
    apply List.countP_eq_zero.mpr
    intro x mem
    have kind := kinds x mem
    rw [not_isVerdict_of_kind]
    · simp
    · intro eq; simp [eq, afterVerdict] at kind
    · intro eq; simp [eq, afterVerdict] at kind
  rw [Prog.bind_ret] at there
  apply EndsOnce.of_after (n := 1)
  refine ⟨n, by rw [Course.after_succ, Course.next_op, Course.after_zero, there], ?_, ?_⟩
  · rw [Course.after_succ, Course.next_op, Course.after_zero, there]
    exact inRange
  · rw [Course.after_succ, Course.next_op, Course.after_zero, there]
    simp [open_, silent, verdict]

/-- The way out of a confirmed upgrade. -/
theorem endsOnce_of_success (row : PatchJobHostRunning) (newVersion : String)
    (inRange : ∀ f ∈ called, f.addsInRange cfg) (open_ : verdicts heard = 0) :
    EndsOnce cfg answers ⟨heard, called, finishSelfUpgradeSuccess row newVersion⟩ := by
  apply EndsOnce.of_after (n := 1)
  apply endsOnce_of_verdict
  · rfl
  · intro answer
    cases answer with
    | error reason => exact syncJobStatus_windsUp row.jobId
    | ok affected => exact iteInduction (fun _ => .ret _) fun _ => syncJobStatus_windsUp row.jobId
  · exact inRange
  · simp [open_, Op.isVerdict]

/-- The way out of a failed upgrade. -/
theorem endsOnce_of_failure (pjhId : Uuid) (errorMsg : String)
    (inRange : ∀ f ∈ called, f.addsInRange cfg) (open_ : verdicts heard = 0) :
    EndsOnce cfg answers ⟨heard, called, handleHostFailure pjhId errorMsg⟩ := by
  apply endsOnce_of_verdict
  · rfl
  · intro answer
    match answer with
    | .error reason => exact .ret _
    | .ok none => exact .ret _
    | .ok (some row) =>
      apply iteInduction (fun _ => .ret _)
      intro _
      apply iteInduction
      · intro _
        exact .op rfl fun now => .op rfl fun _ => .ret _
      · intro _
        refine .op rfl fun answer => ?_
        cases answer with
        | error reason => exact .ret _
        | ok affected => exact .ite (syncJobStatus_windsUp row.jobId) (.ret _)
  · exact inRange
  · exact open_

end ways

/-! ## Rounds -/

section rounds

variable {cfg : WorkerConfig} {row : PatchJobHostRunning} {client : AgentClient}
  {answers : EngineAnswers} {c : EngineCourse} {n : Nat}

/-- The task stands before round `n` of the loop. -/
structure AtRound (cfg : WorkerConfig) (row : PatchJobHostRunning) (client : AgentClient)
    (answers : EngineAnswers) (n : Nat) (c : EngineCourse) : Prop where
  rest : ∃ elapsed : UInt64,
    elapsed.toNat = n * cfg.selfUpgradeReconnectPollIntervalSecs.toNat ∧
      c.rest = reconnectLoop cfg row client (readTargetVersion row answers)
        (readOldVersion row answers) elapsed ∧
      Fn.reconnectLoop row client (readTargetVersion row answers) (readOldVersion row answers)
        elapsed ∈ c.called
  heard : c.heard.length = 2 * n + 2
  called : ∀ f ∈ c.called, ∃ row client targetVersion oldVersion elapsed,
    f = .reconnectLoop row client targetVersion oldVersion elapsed ∧
      elapsed.toNat ≤ n * cfg.selfUpgradeReconnectPollIntervalSecs.toNat
  open_ : verdicts c.heard = 0

/-- `targetVersionOf` is one read. -/
theorem targetVersionOf_reads (jobId : Uuid) :
    ∃ read : Op.Resp (.sql (.select (.patchSelection jobId))) → Option String, targetVersionOf jobId =
      .op (.sql (.select (.patchSelection jobId))) fun answer => .ret (read answer) := by
  refine ⟨fun answer => match answer with
    | .ok (some selection) => (selection.get? "target_version").bind Json.asStr?
    | .ok none => none
    | .error _ => none, congrArg (Prog.op _) (funext fun answer => ?_)⟩
  match answer with
  | .ok (some selection) => rfl
  | .ok none => rfl
  | .error reason => rfl

/-- `oldVersionOf` is one read. -/
theorem oldVersionOf_reads (hostId : Uuid) :
    ∃ read : Op.Resp (.sql (.select (.agentVersion hostId))) → Option String, oldVersionOf hostId =
      .op (.sql (.select (.agentVersion hostId))) fun answer => .ret (read answer) := by
  refine ⟨fun answer => match answer with
    | .ok version => version
    | .error _ => none, congrArg (Prog.op _) (funext fun answer => ?_)⟩
  cases answer with
  | ok version => rfl
  | error reason => rfl

/-- The two reads and the call of the loop. -/
theorem atRound_zero :
    AtRound cfg row client answers 0 ((reconnectCourse row client).after (body cfg) answers 3) := by
  obtain ⟨readTarget, target⟩ := targetVersionOf_reads row.jobId
  obtain ⟨readOld, old⟩ := oldVersionOf_reads row.hostId
  have called : (reconnectCourse row client).after (body cfg) answers 3 =
      ⟨[⟨.sql (.select (.patchSelection row.jobId)), answers 0 _⟩,
          ⟨.sql (.select (.agentVersion row.hostId)), answers 1 _⟩],
        [.reconnectLoop row client (readTargetVersion row answers) (readOldVersion row answers) 0],
        reconnectLoop cfg row client (readTargetVersion row answers)
          (readOldVersion row answers) 0⟩ := by
    simp only [reconnectCourse, reconnectConfirmSelfUpgrade, readTargetVersion, readOldVersion,
      target, old, Prog.result_op, Prog.result_ret, Option.join_some]
    rfl
  rw [called]
  refine ⟨⟨0, by simp, rfl, by simp⟩, rfl, ?_, by simp [Op.isVerdict]⟩
  intro f mem
  exact ⟨_, _, _, _, _, List.mem_singleton.mp mem, by simp⟩

/-- What a round does with its sample. -/
def judge (cfg : WorkerConfig) (row : PatchJobHostRunning) (client : AgentClient)
    (targetVersion oldVersion : Option String) (elapsed : UInt64) : VersionSampleAction → Proc Unit
  | .succeeded newVersion => finishSelfUpgradeSuccess row newVersion
  | .retry =>
    if elapsed ≥ cfg.selfUpgradeReconnectTimeoutSecs then
      handleHostFailure row.id
        "Agent did not reach the target version within the self-upgrade reconnect timeout"
    else .jump (.reconnectLoop row client targetVersion oldVersion elapsed)
  | .fail reason => handleHostFailure row.id reason

theorem judge_retry (client : AgentClient) (targetVersion oldVersion : Option String) (elapsed : UInt64) :
    judge cfg row client targetVersion oldVersion elapsed .retry =
      if elapsed ≥ cfg.selfUpgradeReconnectTimeoutSecs then
        handleHostFailure row.id
          "Agent did not reach the target version within the self-upgrade reconnect timeout"
      else .jump (.reconnectLoop row client targetVersion oldVersion elapsed) := rfl

/-- The two operations of a round. -/
theorem reconnectLoop_after {heard : List (Exchange Op Op.Resp)} {called : List Fn}
    {targetVersion oldVersion : Option String} {elapsed : UInt64}
    (length : heard.length = 2 * n + 2) :
    (Course.mk heard called
        (reconnectLoop cfg row client targetVersion oldVersion elapsed)).after (body cfg) answers 2 =
      ⟨heard ++ [⟨.sleep cfg.selfUpgradeReconnectPollIntervalSecs.toNat, ()⟩,
          ⟨.health client, sample client answers n⟩], called,
        judge cfg row client targetVersion oldVersion
          (elapsed + cfg.selfUpgradeReconnectPollIntervalSecs)
          (decideVersionSample ((sample client answers n).map HealthData.version) targetVersion
            oldVersion)⟩ := by
  simp only [Course.after_succ, Course.after_zero, reconnectLoop, Prog.bind_eq, Prog.perform_bind,
    Course.next_op, List.append_assoc, List.length_append, length, sample]
  congr 1

/-- The counter after the addition at the head of a round. -/
theorem elapsed_toNat {elapsed : UInt64}
    (counted : elapsed.toNat = n * cfg.selfUpgradeReconnectPollIntervalSecs.toNat)
    (inRange : (n + 1) * cfg.selfUpgradeReconnectPollIntervalSecs.toNat < 2 ^ 64) :
    (elapsed + cfg.selfUpgradeReconnectPollIntervalSecs).toNat =
      (n + 1) * cfg.selfUpgradeReconnectPollIntervalSecs.toNat := by
  rw [UInt64.toNat_add, counted, ← Nat.succ_mul]
  exact Nat.mod_eq_of_lt inRange

/-- A round in which the counter stays in range and nothing is decided. -/
theorem AtRound.goesOn (at_ : AtRound cfg row client answers n c)
    (inRange : (n + 1) * cfg.selfUpgradeReconnectPollIntervalSecs.toNat < 2 ^ 64)
    (below : (n + 1) * cfg.selfUpgradeReconnectPollIntervalSecs.toNat <
      cfg.selfUpgradeReconnectTimeoutSecs.toNat)
    (retry : ¬ Decides row client answers n) :
    AtRound cfg row client answers (n + 1) (c.after (body cfg) answers 3) := by
  obtain ⟨elapsed, counted, rest, -⟩ := at_.rest
  have sum := elapsed_toNat counted inRange
  obtain ⟨heard, called, p⟩ := c
  obtain rfl : p = _ := rest
  rw [Course.after_add 2 1, reconnectLoop_after at_.heard, not_not.mp retry]
  have goesOn : judge cfg row client (readTargetVersion row answers) (readOldVersion row answers)
      (elapsed + cfg.selfUpgradeReconnectPollIntervalSecs) .retry =
        .jump (.reconnectLoop row client (readTargetVersion row answers)
          (readOldVersion row answers) (elapsed + cfg.selfUpgradeReconnectPollIntervalSecs)) := by
    rw [judge, if_neg]
    rw [ge_iff_le, UInt64.le_iff_toNat_le, sum]
    omega
  rw [goesOn, Course.after_succ, Course.after_zero, Course.next_jump]
  have length := at_.heard
  refine ⟨⟨_, sum, rfl, by simp⟩, ?_, ?_, ?_⟩
  · simp only [List.length_append, List.length_cons, List.length_nil] at length ⊢
    omega
  · intro f mem
    rcases List.mem_append.mp mem with before | new
    · obtain ⟨_, _, _, _, _, eq, le⟩ := at_.called f before
      exact ⟨_, _, _, _, _, eq, le.trans (Nat.mul_le_mul_right _ n.le_succ)⟩
    · exact ⟨_, _, _, _, _, List.mem_singleton.mp new, sum.le⟩
  · have open_ := at_.open_
    simp only [verdicts_append, verdicts_cons, verdicts_nil] at open_ ⊢
    simp [open_, Op.isVerdict]

/-- A round in which the limit is reached or the sample decides. -/
theorem AtRound.stops (at_ : AtRound cfg row client answers n c)
    (inRange : (n + 1) * cfg.selfUpgradeReconnectPollIntervalSecs.toNat < 2 ^ 64)
    (stops : cfg.selfUpgradeReconnectTimeoutSecs.toNat ≤
        (n + 1) * cfg.selfUpgradeReconnectPollIntervalSecs.toNat ∨ Decides row client answers n) :
    EndsOnce cfg answers c := by
  obtain ⟨elapsed, counted, rest, -⟩ := at_.rest
  have sum := elapsed_toNat counted inRange
  have added : ∀ f ∈ c.called, f.addsInRange cfg := by
    intro f mem
    obtain ⟨_, _, _, _, _, rfl, le⟩ := at_.called f mem
    exact Nat.lt_of_le_of_lt (Nat.add_le_add_right le _) (by rwa [← Nat.succ_mul])
  have open_ := at_.open_
  apply EndsOnce.of_after (n := 2)
  obtain ⟨heard, called, p⟩ := c
  obtain rfl : p = _ := rest
  rw [reconnectLoop_after at_.heard]
  have silent : verdicts (heard ++ [⟨.sleep cfg.selfUpgradeReconnectPollIntervalSecs.toNat, ()⟩,
      ⟨.health client, sample client answers n⟩]) = 0 := by
    simp only [verdicts_append, verdicts_cons, verdicts_nil] at open_ ⊢
    simp [open_, Op.isVerdict]
  cases verdict : decideVersionSample ((sample client answers n).map HealthData.version)
      (readTargetVersion row answers) (readOldVersion row answers) with
  | succeeded newVersion => exact endsOnce_of_success row newVersion added silent
  | fail reason => exact endsOnce_of_failure row.id reason added silent
  | retry =>
    -- only the limit is left to stop this round
    have reached := stops.resolve_right (not_not.mpr verdict)
    rw [judge, if_pos (by rw [ge_iff_le, UInt64.le_iff_toNat_le, sum]; exact reached)]
    exact endsOnce_of_failure row.id _ added silent

/-- The first rounds, as long as none of them stops the loop. -/
theorem atRound_of_goesOn (n : Nat)
    (goesOn : ∀ k < n, (k + 1) * cfg.selfUpgradeReconnectPollIntervalSecs.toNat < 2 ^ 64 ∧
      (k + 1) * cfg.selfUpgradeReconnectPollIntervalSecs.toNat <
        cfg.selfUpgradeReconnectTimeoutSecs.toNat ∧ ¬ Decides row client answers k) :
    AtRound cfg row client answers n
      ((reconnectCourse row client).after (body cfg) answers (3 * (n + 1))) := by
  induction n with
  | zero => exact atRound_zero
  | succ n ih =>
    have before := ih fun k less => goesOn k (Nat.lt_succ_of_lt less)
    obtain ⟨inRange, below, retry⟩ := goesOn n n.lt_succ_self
    rw [Nat.mul_succ 3 (n + 1), Course.after_add]
    exact before.goesOn inRange below retry

end rounds

/-! ## When the loop ends -/

section ends

variable {cfg : WorkerConfig} {row : PatchJobHostRunning} {client : AgentClient}
  {answers : EngineAnswers}

theorem endsOnce_of_decided (decided : DecidedInRange row client answers cfg) :
    EndsOnce cfg answers (reconnectCourse row client) := by
  classical
  -- the first round that stops is reached, since none before it does
  obtain ⟨inRange, stops⟩ := Nat.find_spec decided
  apply EndsOnce.of_after
  apply (atRound_of_goesOn (Nat.find decided) _).stops inRange stops
  intro k less
  have inRange' : (k + 1) * cfg.selfUpgradeReconnectPollIntervalSecs.toNat < 2 ^ 64 :=
    Nat.lt_of_le_of_lt (Nat.mul_le_mul_right _ (by omega)) inRange
  have undecided := Nat.find_min decided less
  simp only [inRange', true_and, not_or, Nat.not_le] at undecided
  exact ⟨inRange', undecided⟩

theorem decided_of_endsOnce (ends : EndsOnce cfg answers (reconnectCourse row client)) :
    DecidedInRange row client answers cfg := by
  obtain ⟨m, ended, added, -⟩ := ends
  by_contra undecided
  -- a round is reached only by a call that can be counted once more, so all are reached
  have reached : ∀ n, AtRound cfg row client answers n
      ((reconnectCourse row client).after (body cfg) answers (3 * (n + 1))) := by
    intro n
    induction n with
    | zero => exact atRound_zero
    | succ n ih =>
      obtain ⟨elapsed, counted, -, called⟩ := ih.rest
      have inRange : (n + 1) * cfg.selfUpgradeReconnectPollIntervalSecs.toNat < 2 ^ 64 := by
        have calls := @Course.called_prefix _ _ _ _ (body cfg) answers
          ((reconnectCourse row client).after (body cfg) answers (3 * (n + 1))) m
        have later := calls.subset called
        rw [← Course.after_add, Course.after_of_over ended (by omega)] at later
        have fits := added _ later
        rw [Fn.addsInRange, counted, ← Nat.succ_mul] at fits
        exact fits
      have goesOn := not_exists.mp undecided n
      simp only [inRange, true_and, not_or, Nat.not_le] at goesOn
      rw [Nat.mul_succ 3 (n + 1), Course.after_add]
      exact ih.goesOn inRange goesOn.1 goesOn.2
  -- and a task that is over is in none
  obtain ⟨elapsed, -, rest, -⟩ := (reached m).rest
  rw [Course.after_of_over ended (by omega), ended] at rest
  cases rest

end ends

/-- The loop ends with one verdict and without an overflow exactly when, within the range of
    the counter, the limit is reached or a sample decides. -/
theorem reconnect_ends_iff (cfg : WorkerConfig) (row : PatchJobHostRunning) (client : AgentClient)
    (answers : EngineAnswers) :
    EndsOnce cfg answers (reconnectCourse row client) ↔ DecidedInRange row client answers cfg :=
  ⟨decided_of_endsOnce, endsOnce_of_decided⟩

theorem not_decides_unanswered (row : PatchJobHostRunning) (client : AgentClient) (n : Nat) :
    ¬ Decides row client unanswered n := not_not.mpr rfl

/-- Settings the configuration loader accepts: it checks neither value. -/
def zeroInterval : WorkerConfig where
  maxConcurrentAgentCalls := 10
  wsRelayPollIntervalSecs := 10
  selfUpgradeReconnectTimeoutSecs := 600
  selfUpgradeReconnectPollIntervalSecs := 0
  jobTimeoutSecs := 1800

/-- With an interval of zero and an agent that stays away the loop goes on for ever. -/
theorem reconnect_never_ends :
    ¬ ∀ (cfg : WorkerConfig) (row : PatchJobHostRunning) (client : AgentClient)
        (answers : EngineAnswers), EndsOnce cfg answers (reconnectCourse row client) := by
  intro claim
  have ends := claim zeroInterval ⟨2, "a", 1, 100, "10.0.0.1", 12443, .selfUpgrade⟩
    ⟨"https://10.0.0.1:12443"⟩ unanswered
  obtain ⟨n, -, reached | decides⟩ := decided_of_endsOnce ends
  · change 600 ≤ (n + 1) * 0 at reached
    omega
  · exact not_decides_unanswered _ _ n decides

/-- The settings for which the loop ends whatever the agent answers: a multiple of the
    interval that the counter can count reaches the limit. -/
theorem reconnect_always_ends_iff (cfg : WorkerConfig) (row : PatchJobHostRunning)
    (client : AgentClient) :
    (∀ answers, EndsOnce cfg answers (reconnectCourse row client)) ↔
      ∃ n, (n + 1) * cfg.selfUpgradeReconnectPollIntervalSecs.toNat < 2 ^ 64 ∧
        cfg.selfUpgradeReconnectTimeoutSecs.toNat ≤
          (n + 1) * cfg.selfUpgradeReconnectPollIntervalSecs.toNat := by
  constructor
  · intro ends
    obtain ⟨n, inRange, reached⟩ := decided_of_endsOnce (ends unanswered)
    exact ⟨n, inRange, reached.resolve_right (not_decides_unanswered row client n)⟩
  · rintro ⟨n, inRange, reached⟩ answers
    exact endsOnce_of_decided ⟨n, inRange, .inl reached⟩

end PatchManager
