import PatchManager.Conc.Credit
import PatchManager.Verified.ParentAgreement
import PatchManager.Verified.Skeleton

/-! # Completion mails

A job that has finished is announced by one mail.  The mail is sent by a task that
`sync_job_status` starts when it finds the job finished, so the number of mails is the
number of such roll-ups.  `update_parent_job_status`, which finishes jobs as well, has no
mail step, and neither roll-up looks whether the job was finished before.

Main result: `one_completion_mail`, one mail for every finished job in the runs in which each
job is finished by one roll-up of `sync_job_status` alone.
-/

namespace PatchManager

open PatchManager.Conc

variable {cfg : WorkerConfig} {s t : State} {h : List (Event World Op Op.Resp Fn)}
  {e : Event World Op Op.Resp Fn} {jobId : Uuid}

/-! ## Mails and the roll-ups that cause them -/

/-- The operation sends the completion mail of the job. -/
def Op.mails (jobId : Uuid) : Op → Bool
  | sendJobCompletionEmail text _ _ _ => text == jobId.text
  | _ => false

/-- The operation is the `UPDATE` by which `sync_job_status` completes the job. -/
def Op.completes (jobId : Uuid) : Op → Bool
  | sql (.updateJobs (.syncParent id _ setCompleted _)) => id == jobId && setCompleted
  | _ => false

def opOf (l : Label Op Op.Resp Fn) : Option Op :=
  match l with
  | .op _ o _ => some o
  | _ => none

/-- The completion mails sent for the job. -/
def mailsSent (jobId : Uuid) (h : List (Event World Op Op.Resp Fn)) : Nat :=
  h.countP fun e => (opOf e.label).any (Op.mails jobId)

/-- The roll-ups of `sync_job_status` that completed the job, whether or not their `UPDATE`
    succeeded. -/
def completions (jobId : Uuid) (h : List (Event World Op Op.Resp Fn)) : Nat :=
  h.countP fun e => (opOf e.label).any (Op.completes jobId)

/-- The mail task of the job. -/
def Fn.mails (jobId : Uuid) : Fn → Bool
  | jobEmails id _ _ _ => id == jobId
  | _ => false

/-- Completing a job earns the right to one mail, which is passed on to the mail task. -/
def mailCredits (jobId : Uuid) : Credits Op Op.Resp Fn where
  earns o _ := (o.completes jobId).toNat
  costs o := (o.mails jobId).toNat
  grant f := (f.mails jobId).toNat

@[simp] theorem mailCredits_earns (o : Op) (r : o.Resp) :
    (mailCredits jobId).earns o r = (o.completes jobId).toNat := rfl
@[simp] theorem mailCredits_costs (o : Op) :
    (mailCredits jobId).costs o = (o.mails jobId).toNat := rfl
@[simp] theorem mailCredits_grant (f : Fn) :
    (mailCredits jobId).grant f = (f.mails jobId).toNat := rfl

theorem earned_mailCredits : earned (mailCredits jobId) h = completions jobId h := by
  induction h with
  | nil => rfl
  | cons e h ih =>
    obtain ⟨pre, label, post⟩ := e
    have rest : earned (mailCredits jobId) (⟨pre, label, post⟩ :: h) =
        label.earned (mailCredits jobId) + earned (mailCredits jobId) h := by simp [earned]
    rw [rest, ih, completions, completions, List.countP_cons]
    cases label with
    | op tid o r => cases completes : o.completes jobId <;>
        simp [Label.earned, opOf, completes, Nat.add_comm]
    | _ => simp [Label.earned, opOf]

theorem spent_mailCredits : spent (mailCredits jobId) h = mailsSent jobId h := by
  induction h with
  | nil => rfl
  | cons e h ih =>
    obtain ⟨pre, label, post⟩ := e
    have rest : spent (mailCredits jobId) (⟨pre, label, post⟩ :: h) =
        label.spent (mailCredits jobId) + spent (mailCredits jobId) h := by simp [spent]
    rw [rest, ih, mailsSent, mailsSent, List.countP_cons]
    cases label with
    | op tid o r => cases mails : o.mails jobId <;>
        simp [Label.spent, opOf, mails, Nat.add_comm]
    | _ => simp [Label.spent, opOf]

/-! ## Every function is balanced -/

/-- Neither a roll-up nor a mail. -/
def OpKind.isFree : OpKind → Bool
  | .rollUp | .mail => false
  | _ => true

theorem free_of_kind {o : Op} (free : o.kind.isFree = true) : (mailCredits jobId).Free o := by
  have noMail : o.mails jobId = false := by
    cases o <;> first | rfl | cases free
  have incomplete : o.completes jobId = false := by
    cases o with
    | sql st =>
      cases st with
      | updateJobs u => cases u <;> first | rfl | cases free
      | _ => rfl
    | _ => rfl
  exact ⟨congrArg Bool.toNat noMail, fun _ => congrArg Bool.toNat incomplete⟩

theorem mails_of_isMail {f : Fn} (noMail : f.isMail = false) : (mailCredits jobId).grant f = 0 := by
  cases f <;> first | rfl | cases noMail

/-- Holds no right to a mail of the job, at its start or its end. -/
abbrev HoldsNothing (jobId : Uuid) {α : Type} (p : Proc α) : Prop := p.Balanced (mailCredits jobId) 0

theorem follows_holdsNothing : Follows (fun {_} p => HoldsNothing jobId p) OpKind.isFree
    (fun f => f.isMail = false) fun f => f.isMail = false where
  toClosed := (Prog.closed_balanced (mailCredits jobId)).mono (fun _ => free_of_kind)
    (fun _ => mails_of_isMail) fun _ => mails_of_isMail
  other := rfl
  read := rfl

theorem syncJobStatus_holdsNothing (id : Uuid) : HoldsNothing jobId (syncJobStatus id) := by
  have C : Follows (fun {_} p => HoldsNothing jobId p) OpKind.isFree (fun f => f.isMail = false)
    (fun f => f.isMail = false) := follows_holdsNothing
  refine C.op rfl fun answer => ?_
  cases answer with
  | error reason => exact C.ret _
  | ok counts =>
    simp only [Prog.ret_bind]
    split
    · exact C.ret _
    · rename_i newStatus setCompleted _
      -- the UPDATE earns a mail if it completes the job; the mail task takes it
      refine .earn rfl fun _ => .free (free_of_kind rfl) ?_
      cases setCompleted with
      | false =>
        have earns : (Op.sql (.updateJobs (.syncParent id newStatus false counts))).completes jobId =
            false := Bool.and_false _
        refine fun _ => (Nat.zero_add _).trans ?_
        rw [mailCredits_earns, earns]
        rfl
      | true =>
        have earns : (Op.sql (.updateJobs (.syncParent id newStatus true counts))).completes jobId =
            (id == jobId) := Bool.and_true _
        refine fun _ => .pass ?_ (C.ret _)
        rw [Nat.zero_add, mailCredits_earns, earns]
        rfl

theorem jobEmails_balanced (id : Uuid) (total succeeded failed : Nat) :
    (jobEmails id total succeeded failed).Balanced (mailCredits jobId)
      ((Fn.jobEmails id total succeeded failed).mails jobId).toNat := by
  have C : Follows (fun {_} p => HoldsNothing jobId p) OpKind.isFree (fun f => f.isMail = false)
    (fun f => f.isMail = false) := follows_holdsNothing
  have mail : (Op.sendJobCompletionEmail id.text total succeeded failed).mails jobId =
      (Fn.jobEmails id total succeeded failed).mails jobId := by
    by_cases own : id = jobId
    · simp [Op.mails, Fn.mails, own]
    · have other : ¬ id.text = jobId.text := fun same => own (Uuid.text_injective same)
      simp [Op.mails, Fn.mails, own, other]
  have costs : (mailCredits jobId).costs (.sendJobCompletionEmail id.text total succeeded failed) =
      ((Fn.jobEmails id total succeeded failed).mails jobId).toNat := by
    rw [mailCredits_costs, mail]
  refine .pay costs (fun _ => rfl) fun _ => ?_
  refine iteInduction (fun _ => C.op rfl fun answer => ?_) fun _ => C.ret _
  cases answer with
  | error reason => exact C.ret _
  | ok failedHosts => exact sendFailureEmails_follows C id failedHosts

theorem cancelJob_holdsNothing (auth : AuthUser) (id : Uuid) :
    HoldsNothing jobId (cancelJob auth id) :=
  cancelJob_follows follows_holdsNothing rfl (cancelRows_follows follows_holdsNothing rfl rfl) auth id

/-- The request handlers finish no job and send no mail. -/
theorem request_within {f : Fn} (isRequest : f.isRequest = true) :
    (body cfg f).Within (mailCredits jobId).Free (fun f => (mailCredits jobId).grant f = 0)
      fun _ => False := by
  have C : Follows (fun {_} p => p.Within (mailCredits jobId).Free
      (fun f => (mailCredits jobId).grant f = 0) fun _ => False) OpKind.isFree
      (fun f => (mailCredits jobId).grant f = 0) fun _ => False :=
    { (closed_within (mailCredits jobId).Free (fun f => (mailCredits jobId).grant f = 0)
        fun _ => False).mono (fun _ => free_of_kind) (fun _ => id) fun _ => id with
      other := rfl
      read := rfl }
  have cancels : ∀ auth id, (cancelJob auth id).Within (mailCredits jobId).Free
      (fun f => (mailCredits jobId).grant f = 0) fun _ => False :=
    cancelJob_follows C rfl (cancelRows_follows C rfl rfl)
  exact request_follows C (fun k routine _ => by cases k <;> first | rfl | cases routine) cancels cfg
    isRequest

/-- Every right to a mail is used. -/
theorem engine_solvent : (engine cfg).Solvent (mailCredits jobId) where
  balanced f := by
    cases mail : f.isMail with
    | true =>
      cases f with
      | jobEmails id total succeeded failed => exact jobEmails_balanced id total succeeded failed
      | _ => cases mail
    | false =>
      rw [mails_of_isMail mail]
      exact service_follows follows_holdsNothing (fun k common => by cases k <;> first | rfl | cases common)
        rfl rfl rfl rfl (fun _ => id) (fun _ => id) syncJobStatus_holdsNothing
        (updateParentJobStatus_follows follows_holdsNothing rfl rfl) cancelJob_holdsNothing cfg mail
  called s f w called := by
    cases f with
    | jobEmails => rcases called.1 with isRequest | isTick <;> simp_all [Fn.isRequest, Fn.isTick]
    | _ => rfl
  abandoned f isRequest :=
    ⟨mails_of_isMail (by cases f <;> first | rfl | cases isRequest), request_within isRequest⟩

/-! ## Statuses of roll-ups -/

/-- `sync_job_status` sets `completed_at` together with a final status, and
    `update_parent_job_status` always writes one. -/
def Op.setsFinal : Op → Prop
  | sql (.updateJobs (.syncParent _ newStatus setCompleted _)) => newStatus.isTerminal = setCompleted
  | sql (.updateJobs (.updateParentFinal _ status _)) => status.isTerminal = true
  | _ => True

/-- Not a roll-up. -/
def OpKind.isQuiet : OpKind → Bool
  | .rollUp | .rollUpFinal => false
  | _ => true

theorem setsFinal_of_kind {o : Op} (quiet : o.kind.isQuiet = true) : o.setsFinal := by
  unfold Op.setsFinal
  split
  · cases quiet
  · cases quiet
  · trivial

theorem body_setsFinal (f : Fn) :
    (body cfg f).Within Op.setsFinal (fun _ => True) fun _ => True := by
  have C : Follows (fun {_} p => p.Within Op.setsFinal (fun _ => True) fun _ => True)
      OpKind.isQuiet (fun _ => True) fun _ => True :=
    { (closed_within Op.setsFinal (fun _ => True) fun _ => True).mono (fun _ => setsFinal_of_kind)
        (fun _ => id) fun _ => id with
      other := rfl
      read := rfl }
  have sync : ∀ id, (syncJobStatus id).Within Op.setsFinal (fun _ => True) fun _ => True := by
    intro id
    refine C.op rfl fun answer => ?_
    cases answer with
    | error reason => exact C.ret _
    | ok counts =>
      simp only [Prog.ret_bind]
      split
      · exact C.ret _
      · rename_i status
        refine .op (aggregateStatus_isTerminal status) fun _ => C.op rfl fun _ => ?_
        split
        · exact .spawn trivial (C.ret _)
        · exact C.ret _
  have rollsUp : ∀ id, (updateParentJobStatus id).Within Op.setsFinal (fun _ => True) fun _ => True := by
    intro id
    refine C.op rfl fun answer => ?_
    cases answer with
    | error reason => exact C.ret _
    | ok pending =>
      refine iteInduction (fun _ => C.ret _) fun _ => C.op rfl fun answer => ?_
      cases answer with
      | error reason => exact C.ret _
      | ok counts =>
        refine .op (finalStatus_isTerminal counts) fun answer => ?_
        cases answer with
        | error reason => exact C.ret _
        | ok => exact C.op rfl fun _ => C.ret _
  cases mail : f.isMail with
  | true =>
    cases f with
    | jobEmails id total succeeded failed => exact jobEmails_follows C rfl id total succeeded failed
    | _ => cases mail
  | false =>
    exact service_follows C (fun k common => by cases k <;> first | rfl | cases common) rfl rfl rfl rfl
      (fun _ _ => trivial) (fun _ _ => trivial) sync rollsUp
      (cancelJob_follows C rfl (cancelRows_follows C rfl rfl)) cfg mail

/-! ## The property -/

/-- The tasks that have completed the job or have its mail to send are over. -/
def MailTasksOver (jobId : Uuid) (h : List (Event World Op Op.Resp Fn)) (s : State) : Prop :=
  ∀ (tid : Nat) (task : Task Op Op.Resp Fn), s.tasks[tid]? = some task →
    (task.root.mails jobId = true ∨
      ∃ e ∈ h, ∃ o r, e.label = .op tid o r ∧ o.completes jobId = true) →
    isDone task = true

/-- Throughout the run there is at most one mail for the job, and exactly one when the job has
    finished and no task is about to send it. -/
structure OneMail (cfg : WorkerConfig) (s : State) (jobId : Uuid)
    (h : List (Event World Op Op.Resp Fn)) : Prop where
  atMost : ∀ h₁, h₁ <+: h → mailsSent jobId h₁ ≤ 1
  exactly : ∀ h₁ u, h₁ <+: h → Run (engine cfg) s h₁ u → u.world.db.jobFinished jobId = true →
    MailTasksOver jobId h₁ u → mailsSent jobId h₁ = 1

/-- The statements that finish the job without a mail. -/
def JobUpdate.finishesSilently (jobId : Uuid) : JobUpdate → Bool
  | updateParentFinal id _ _ | cancelParent id => id == jobId
  | _ => false

/-- The job is finished once, by `sync_job_status`, and the worker is not restarted before its
    mail is sent. -/
structure FinishedOnce (jobId : Uuid) (h : List (Event World Op Op.Resp Fn)) : Prop where
  /-- `sync_job_status` updates the job only while it is unfinished -/
  unfinished : ∀ e ∈ h, ∀ newStatus setCompleted counts,
    took e.label = some (.updateJobs (.syncParent jobId newStatus setCompleted counts)) →
      ∃ j, e.pre.world.db.job jobId = some j ∧ j.status.isTerminal = false
  /-- the `UPDATE` that completes the job does not fail -/
  recorded : ∀ e ∈ h, (opOf e.label).any (Op.completes jobId) = true → (took e.label).isSome = true
  /-- the relay and `cancel_job` never finish the job -/
  alone : ∀ e ∈ h, ∀ u, took e.label = some (.updateJobs u) → u.finishesSilently jobId = true →
    ∀ j, e.pre.world.db.job jobId = some j → j.status.isTerminal = true
  /-- at a restart no mail is outstanding -/
  delivered : ∀ h₁ e h₂, h = h₁ ++ e :: h₂ → e.label = .restart →
    completions jobId h₁ = mailsSent jobId h₁

theorem FinishedOnce.initial_part {h₁ : List (Event World Op Op.Resp Fn)}
    (once : FinishedOnce jobId h) (initial : h₁ <+: h) : FinishedOnce jobId h₁ := by
  obtain ⟨h₂, rfl⟩ := initial
  exact
    { unfinished := fun e mem => once.unfinished e (List.mem_append_left _ mem)
      recorded := fun e mem => once.recorded e (List.mem_append_left _ mem)
      alone := fun e mem => once.alone e (List.mem_append_left _ mem)
      delivered := fun h₁ e h₃ eq => once.delivered h₁ e (h₃ ++ h₂) (by simp [eq]) }

/-- A statement that overwrites the job is a roll-up by `sync_job_status` or finishes the job
    silently. -/
theorem JobUpdate.overwrites_cases {u : JobUpdate} {status : JobStatus}
    (writes : u.overwrites = some (jobId, status)) :
    (∃ setCompleted counts, u = .syncParent jobId status setCompleted counts) ∨
      u.finishesSilently jobId = true := by
  cases u with
  | markJobRunning => cases writes
  | syncParent id newStatus setCompleted counts => cases writes; exact .inl ⟨_, _, rfl⟩
  | updateParentFinal | cancelParent => cases writes; exact .inr (beq_self_eq_true _)

/-! ## One completion, one mail -/

/-- The job has been completed once if it is finished, and not at all otherwise. -/
theorem completions_eq (run : Run (engine cfg) s h t) (initial : Initial s)
    (once : FinishedOnce jobId h) :
    completions jobId h = (t.world.db.jobFinished jobId).toNat := by
  have final : ∀ e ∈ h, ∀ tid o r, e.label = .op tid o r → o.setsFinal :=
    fun e mem tid o r label => run.within initial.tasks body_setsFinal mem label
  refine run.preserves_history
    (I := fun h s => completions jobId h = (s.world.db.jobFinished jobId).toNat) ?_ ?_
  · simp [completions, Db.jobFinished, Db.job, initial.patchJobs, Sql.lookup]
  · rintro h₁ e ⟨h₂, rfl⟩ step before
    have mem : e ∈ h₁ ++ e :: h₂ := by simp
    have counted : completions jobId (h₁ ++ [e]) =
        completions jobId h₁ + ((opOf e.label).any (Op.completes jobId)).toNat := by
      cases completes : (opOf e.label).any (Op.completes jobId) <;>
        simp [completions, completes]
    rw [counted, before]
    by_cases writes : ∃ u status, took e.label = some (.updateJobs u) ∧
        u.overwrites = some (jobId, status)
    · obtain ⟨u, status, effect, overwrites⟩ := writes
      obtain ⟨tid, result, label⟩ := took_eq_some effect
      have sets := final e mem tid _ _ label
      rcases JobUpdate.overwrites_cases overwrites with ⟨setCompleted, counts, rfl⟩ | silent
      · -- the roll-up finds the job unfinished and finishes it if it completes it
        obtain ⟨j, found, unfinished⟩ := once.unfinished e mem _ _ _ effect
        have completes : (opOf e.label).any (Op.completes jobId) = setCompleted := by
          simp [label, opOf, Op.completes]
        rw [jobFinished_of_written step effect overwrites found, completes,
          show status.isTerminal = setCompleted from sets]
        simp [Db.jobFinished, found, unfinished]
      · have completes : (opOf e.label).any (Op.completes jobId) = false := by
          cases u <;> simp_all [opOf, Op.completes, JobUpdate.finishesSilently]
        have after : e.post.world.db.jobFinished jobId = e.pre.world.db.jobFinished jobId := by
          cases found : e.pre.world.db.job jobId with
          | none => rw [jobFinished_of_none step found, Db.jobFinished, found]; rfl
          | some j =>
            have terminal := once.alone e mem u effect silent j found
            have written : status.isTerminal = true := by
              cases u with
              | updateParentFinal => cases overwrites; exact sets
              | cancelParent => cases overwrites; rfl
              | _ => cases silent
            rw [jobFinished_of_written step effect overwrites found, written, Db.jobFinished, found]
            exact terminal.symm
        rw [completes, after]
        rfl
    · have silent : ∀ u status, took e.label = some (.updateJobs u) →
          u.overwrites ≠ some (jobId, status) :=
        fun u status effect overwrites => writes ⟨u, status, effect, overwrites⟩
      have completes : (opOf e.label).any (Op.completes jobId) = false := by
        refine Bool.eq_false_iff.mpr fun completes => ?_
        obtain ⟨st, effect⟩ := Option.isSome_iff_exists.mp (once.recorded e mem completes)
        obtain ⟨tid, result, label⟩ := took_eq_some effect
        simp only [label, opOf, Option.any_some] at completes
        unfold Op.completes at completes
        split at completes
        · rename_i id newStatus setCompleted counts eq
          cases eq
          simp only [Bool.and_eq_true, beq_iff_eq] at completes
          exact silent _ newStatus effect (by rw [completes.1]; rfl)
        · cases completes
      rw [completes, jobFinished_of_silent step silent]
      rfl

/-- In every run in which the job is finished once and by `sync_job_status`, there is one
    completion mail for it. -/
theorem one_completion_mail (run : Run (engine cfg) s h t) (initial : Initial s)
    (once : FinishedOnce jobId h) : OneMail cfg s jobId h := by
  have even : ∀ {h₁ : List (Event World Op Op.Resp Fn)}, FinishedOnce jobId h₁ →
      ∀ h₂ e h₃, h₁ = h₂ ++ e :: h₃ → e.label = .restart →
        earned (mailCredits jobId) h₂ = spent (mailCredits jobId) h₂ := by
    intro h₁ once h₂ e h₃ eq restart
    rw [earned_mailCredits, spent_mailCredits]
    exact once.delivered h₂ e h₃ eq restart
  refine ⟨fun h₁ part => ?_, fun h₁ u part run₁ finished over_ => ?_⟩
  · have once₁ := once.initial_part part
    obtain ⟨h₂, rfl⟩ := part
    obtain ⟨u, run₁, -⟩ := run.split
    obtain ⟨balance, -, total⟩ := run₁.account engine_solvent initial.tasks (even once₁)
    rw [earned_mailCredits, spent_mailCredits, completions_eq run₁ initial once₁] at total
    have few := Bool.toNat_le (u.world.db.jobFinished jobId)
    omega
  · have once₁ := once.initial_part part
    have settled := run₁.account_settled engine_solvent initial.tasks (even once₁)
      fun tid task at_ source => isDone_eq_true.mp (over_ tid task at_ ?_)
    · rw [earned_mailCredits, spent_mailCredits, completions_eq run₁ initial once₁, finished] at settled
      exact settled
    · rcases source with granted | ⟨e, mem, o, r, label, earns⟩
      · exact .inl (by simpa [Nat.pos_iff_ne_zero] using granted)
      · exact .inr ⟨e, mem, o, r, label, by simpa [Nat.pos_iff_ne_zero] using earns⟩

/-! ## Runs on the small installation -/

/-- `FinishedOnce` at one event, when no other statement finishes the job and the worker is
    not restarted. -/
def finishedOnceAt (jobId : Uuid) (e : Event World Op Op.Resp Fn) : Bool :=
  match e.label with
  | .op _ (.sql (.updateJobs (.syncParent id _ _ _))) (.ok _) =>
    id != jobId || (e.pre.world.db.job jobId).any fun j => !j.status.isTerminal
  | .op _ (.sql (.updateJobs (.syncParent id _ setCompleted _))) (.error _) =>
    id != jobId || !setCompleted
  | .op _ (.sql (.updateJobs (.updateParentFinal id _ _))) (.ok _) => id != jobId
  | .op _ (.sql (.updateJobs (.cancelParent id))) (.ok _) => id != jobId
  | .restart => false
  | _ => true

theorem finishedOnce_of_checks (checks : h.all (finishedOnceAt jobId) = true) :
    FinishedOnce jobId h := by
  have at_ : ∀ e ∈ h, finishedOnceAt jobId e = true := List.all_eq_true.mp checks
  refine ⟨fun e mem newStatus setCompleted counts effect => ?_, fun e mem completes => ?_,
    fun e mem u effect silent j found => ?_, fun h₁ e h₂ eq restart => ?_⟩
  · obtain ⟨tid, result, label⟩ := took_eq_some effect
    have ok := at_ e mem
    simp only [finishedOnceAt, label, bne_self_eq_false, Bool.false_or, Option.any_eq_true,
      Bool.not_eq_true'] at ok
    exact ok
  · have ok := at_ e mem
    obtain ⟨pre, label, post⟩ := e
    cases label with
    | op tid o answer =>
      simp only [opOf, Option.any_some] at completes
      unfold Op.completes at completes
      split at completes
      · cases answer with
        | error reason => simp_all [finishedOnceAt]
        | ok result => rfl
      · cases completes
    | _ => cases completes
  · obtain ⟨tid, result, label⟩ := took_eq_some effect
    have ok := at_ e mem
    cases u <;> simp_all [finishedOnceAt, JobUpdate.finishesSilently]
  · have ok := at_ e (by simp [eq])
    simp [finishedOnceAt, restart] at ok

/-- The mail task of the job that the poll has rolled up, task 5, sends its mail. -/
def mailedOnce : List (Move Small.player) := rolledUp ++ Small.steps 5 1

theorem one_completion_mail_mailedOnce :
    OneMail Small.config Small.start 1 (Small.player.history Small.start mailedOnce) := by
  have plays : (Small.player.play Small.start mailedOnce).isSome = true := by decide +kernel
  exact one_completion_mail (Small.player.run_of_play plays) Small.start_initial
    (finishedOnce_of_checks (by decide +kernel))

/-- The row succeeds by an event, and its relay, task 4, rolls the job up. -/
def relayedUp : List (Move Small.player) :=
  Small.creates ++ Small.processes 1 ++ Small.submits 2 "a" ++ Small.steps 2 1 ++
    .call .relayTick :: Small.steps 3 6 ++ Small.steps 4 2 ++
    [.run 4 (.frame (some (.message (some { jobId := "a", status := "succeeded" }))))] ++
    Small.steps 4 7

/-- The job is finished, nothing is in progress, and no mail was sent. -/
theorem no_mail_for_relayed_job :
    ¬ ∀ (cfg : WorkerConfig) (s t : State) (h : List (Event World Op Op.Resp Fn)) (jobId : Uuid),
      Initial s → Run (engine cfg) s h t → OneMail cfg s jobId h := by
  intro all
  have plays : (Small.player.play Small.start relayedUp).isSome = true := by decide +kernel
  have run := Small.player.run_of_play plays
  have sent := (all _ _ _ _ 1 Small.start_initial run).exactly _ _ (List.prefix_refl _) run
    (by decide +kernel) fun tid task at_ _ => ?_
  · have none : mailsSent 1 (Small.player.history Small.start relayedUp) = 0 := by decide +kernel
    rw [none] at sent
    cases sent
  · have over_ : (endOf Small.start relayedUp).tasks.all isDone = true := by decide +kernel
    exact List.all_eq_true.mp over_ task (List.mem_of_getElem? at_)

end PatchManager
