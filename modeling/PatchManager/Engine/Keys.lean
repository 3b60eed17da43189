import PatchManager.Engine.System
import Mathlib.Data.List.Nodup

/-! # Keys

In every state a run reaches, the rows of the two job tables have distinct identifiers
below the next one to be handed out, so that looking a row up finds the row itself.

Main results: `run_keys`, `Keys.pjh_eq`, `Keys.job_eq`, `run_parent` for the parents of host
rows, `run_pairs` for the pairs of job and host they are for, and `run_pjh`, `run_job` for what
rows keep over a run.
-/

namespace PatchManager

open PatchManager.Conc

variable {cfg : WorkerConfig} {s t : State} {l : Label Op Op.Resp Fn}
  {h : List (Event World Op Op.Resp Fn)} {db : Db}

/-- Distinct keys below `bound`. -/
structure KeyedBelow {Row : Type} (key : Row → Uuid) (bound : Uuid) (rows : List Row) : Prop where
  distinct : (rows.map key).Nodup
  below : ∀ r ∈ rows, key r < bound

theorem KeyedBelow.extend {Row : Type} {key : Row → Uuid} {bound bound' : Uuid}
    {rows fresh : List Row} {f : Row → Row} (keyed : KeyedBelow key bound rows)
    (keeps : ∀ r, key (f r) = key r) (few : fresh.length ≤ 1)
    (above : ∀ r ∈ fresh, bound ≤ key r ∧ key r < bound') (grows : bound ≤ bound') :
    KeyedBelow key bound' (rows.map f ++ fresh) := by
  have same : (rows.map f).map key = rows.map key := by simp [keeps]
  constructor
  · rw [List.map_append, same]
    refine List.nodup_append.mpr ⟨keyed.distinct, ?_, ?_⟩
    · match fresh, few with
      | [], _ => exact List.nodup_nil
      | [r], _ => exact List.nodup_singleton _
    · intro a old b new eq
      obtain ⟨r, mem, rfl⟩ := List.mem_map.mp old
      obtain ⟨r', mem', rfl⟩ := List.mem_map.mp new
      have less : key r < key r' := Nat.lt_of_lt_of_le (keyed.below r mem) (above r' mem').1
      exact absurd eq (Nat.ne_of_lt less)
  · intro r mem
    rcases List.mem_append.mp mem with old | new
    · obtain ⟨r₀, mem₀, rfl⟩ := List.mem_map.mp old
      rw [keeps]
      exact Nat.lt_of_lt_of_le (keyed.below r₀ mem₀) grows
    · exact (above r new).2

theorem KeyedBelow.lookup {Row : Type} {key : Row → Uuid} {bound : Uuid} {rows : List Row} {r : Row}
    (keyed : KeyedBelow key bound rows) (mem : r ∈ rows) : Sql.lookup key (key r) rows = some r := by
  have found : (Sql.lookup key (key r) rows).isSome = true :=
    List.find?_isSome.mpr ⟨r, mem, by simp⟩
  obtain ⟨r', eq⟩ := Option.isSome_iff_exists.mp found
  obtain ⟨mem', same⟩ := Sql.lookup_some eq
  rw [eq, List.inj_on_of_nodup_map keyed.distinct mem' mem same]

/-- The keys of the two job tables. -/
structure Keys (db : Db) : Prop where
  hosts : KeyedBelow PatchJobHost.id db.nextId db.patchJobHosts
  jobs : KeyedBelow PatchJob.id db.nextId db.patchJobs

theorem Keys.pjh_eq {r : PatchJobHost} (keys : Keys db) (mem : r ∈ db.patchJobHosts) :
    db.pjh r.id = some r := keys.hosts.lookup mem

theorem Keys.job_eq {j : PatchJob} (keys : Keys db) (mem : j ∈ db.patchJobs) :
    db.job j.id = some j := keys.jobs.lookup mem

theorem Keys.step (step : Step (engine cfg) s l t) (keys : Keys s.world.db) :
    Keys t.world.db := by
  rcases step_db step with ⟨st, result, -, ran⟩ | ⟨-, same⟩
  · obtain ⟨freshHosts, hosts, fewHosts, newHosts⟩ := Stmt.run_patchJobHosts ran
    obtain ⟨freshJobs, jobs, fewJobs, newJobs⟩ := Stmt.run_patchJobs ran
    have grows := (Stmt.run_now ran).2
    constructor
    · rw [hosts]
      exact keys.hosts.extend (st.hostEffect_id _) fewHosts
        (fun r mem => ⟨(newHosts r mem).lower, (newHosts r mem).upper⟩) grows
    · rw [jobs]
      exact keys.jobs.extend (st.jobEffect_id _) fewJobs
        (fun j mem => ⟨(newJobs j mem).lower, (newJobs j mem).upper⟩) grows
  · constructor
    · rw [same.patchJobHosts, same.nextId]; exact keys.hosts
    · rw [same.patchJobs, same.nextId]; exact keys.jobs

theorem run_keys (run : Run (engine cfg) s h t) (initial : Initial s) : Keys t.world.db := by
  refine run.preserves (I := fun s => Keys s.world.db) (fun _ _ step keys => Keys.step step keys) ?_
  constructor
  · rw [initial.patchJobHosts]; exact ⟨List.nodup_nil, by simp⟩
  · rw [initial.patchJobs]; exact ⟨List.nodup_nil, by simp⟩

/-! ## What rows keep -/

theorem hostEffect_key (now : Time) (r : PatchJobHost) :
    (hostEffect now l r).jobId = r.jobId ∧ (hostEffect now l r).hostId = r.hostId := by
  unfold hostEffect
  split
  · exact ⟨Stmt.hostEffect_jobId _ _ _, Stmt.hostEffect_hostId _ _ _⟩
  · exact ⟨rfl, rfl⟩

theorem jobEffect_immediate (now : Time) (j : PatchJob) :
    (jobEffect now l j).immediate = j.immediate := by
  unfold jobEffect
  split
  · exact Stmt.jobEffect_immediate _ _ _
  · rfl

/-- A host row stays, for the same job and host. -/
theorem run_pjh {pjhId : Uuid} {r : PatchJobHost} (run : Run (engine cfg) s h t)
    (found : s.world.db.pjh pjhId = some r) :
    ∃ r', t.world.db.pjh pjhId = some r' ∧ r'.jobId = r.jobId ∧ r'.hostId = r.hostId := by
  refine run.preserves (I := fun s => ∃ r', s.world.db.pjh pjhId = some r' ∧ r'.jobId = r.jobId ∧
    r'.hostId = r.hostId) (fun e _ step ⟨r', found', job, host⟩ => ?_) ⟨r, found, rfl, rfl⟩
  obtain ⟨job', host'⟩ := hostEffect_key (l := e.label) e.pre.world.db.now r'
  exact ⟨_, step_pjh step found', job'.trans job, host'.trans host⟩

/-- A job stays, and stays immediate or not. -/
theorem run_job {jobId : Uuid} {j : PatchJob} (run : Run (engine cfg) s h t)
    (found : s.world.db.job jobId = some j) :
    ∃ j', t.world.db.job jobId = some j' ∧ j'.immediate = j.immediate := by
  refine run.preserves (I := fun s => ∃ j', s.world.db.job jobId = some j' ∧
    j'.immediate = j.immediate) (fun e _ step ⟨j', found', same⟩ => ?_) ⟨j, found, rfl⟩
  exact ⟨_, step_job step found', (jobEffect_immediate (l := e.label) _ j').trans same⟩

theorem jobEffect_what (now : Time) (j : PatchJob) :
    (jobEffect now l j).kind = j.kind ∧ (jobEffect now l j).patchSelection = j.patchSelection := by
  unfold jobEffect
  split
  · exact ⟨Stmt.jobEffect_kind _ _ _, Stmt.jobEffect_patchSelection _ _ _⟩
  · exact ⟨rfl, rfl⟩

/-- A job stays what it is. -/
theorem run_job_what {jobId : Uuid} {j : PatchJob} (run : Run (engine cfg) s h t)
    (found : s.world.db.job jobId = some j) :
    ∃ j', t.world.db.job jobId = some j' ∧ j'.kind = j.kind ∧
      j'.patchSelection = j.patchSelection := by
  refine run.preserves (I := fun s => ∃ j', s.world.db.job jobId = some j' ∧ j'.kind = j.kind ∧
    j'.patchSelection = j.patchSelection) (fun e _ step ⟨j', found', kind, selection⟩ => ?_)
    ⟨j, found, rfl, rfl⟩
  obtain ⟨kind', selection'⟩ := jobEffect_what (l := e.label) e.pre.world.db.now j'
  exact ⟨_, step_job step found', kind'.trans kind, selection'.trans selection⟩

/-- Every host row has its job. -/
theorem run_parent (run : Run (engine cfg) s h t) (initial : Initial s) :
    ∀ r ∈ t.world.db.patchJobHosts, (t.world.db.job r.jobId).isSome = true := by
  refine run.preserves (I := fun s => ∀ r ∈ s.world.db.patchJobHosts,
    (s.world.db.job r.jobId).isSome = true) (fun e _ step before r mem => ?_) ?_
  · -- a parent stays, so only a row that was just inserted is new
    have kept : ∀ r₀ ∈ e.pre.world.db.patchJobHosts, (e.post.world.db.job r₀.jobId).isSome = true := by
      intro r₀ mem₀
      obtain ⟨j, found⟩ := Option.isSome_iff_exists.mp (before r₀ mem₀)
      rw [step_job step found]
      rfl
    rcases step_db step with ⟨st, result, -, ran⟩ | ⟨-, same⟩
    · obtain ⟨fresh, eq, -, new⟩ := Stmt.run_patchJobHosts ran
      rw [eq] at mem
      rcases List.mem_append.mp mem with old | inserted
      · obtain ⟨r₀, mem₀, rfl⟩ := List.mem_map.mp old
        rw [Stmt.hostEffect_jobId]
        exact kept r₀ mem₀
      · exact (new r inserted).parent
    · rw [same.patchJobHosts] at mem
      exact kept r mem
  · rw [initial.patchJobHosts]
    simp

/-! ## One row for each job and host -/

def PatchJobHost.pair (r : PatchJobHost) : Uuid × Uuid := (r.jobId, r.hostId)

/-- No two rows are for the same job and host. -/
def PairsDistinct (db : Db) : Prop := (db.patchJobHosts.map PatchJobHost.pair).Nodup

/-- The pairs stay, and at most one is added: one that is not there, or one of a new job. -/
theorem Stmt.run_pairs_cases {st : Stmt} {db' : Db} {result : st.Result}
    (ran : st.run db = some (result, db')) :
    db'.patchJobHosts.map PatchJobHost.pair = db.patchJobHosts.map PatchJobHost.pair ∨
      ∃ p, db'.patchJobHosts.map PatchJobHost.pair =
          db.patchJobHosts.map PatchJobHost.pair ++ [p] ∧
        (p ∉ db.patchJobHosts.map PatchJobHost.pair ∨ p.1 = db.nextId) := by
  cases st with
  | insertJobHost jobId hostId =>
    simp only [run, Option.ite_none_right_eq_some] at ran
    obtain ⟨-, ran⟩ := ran
    split at ran
    · cases ran
      exact .inl rfl
    · rename_i conflict
      cases ran
      refine .inr ⟨(jobId, hostId), by simp [Db.insertJobHost, PatchJobHost.pair], .inl ?_⟩
      intro taken
      obtain ⟨r, mem, eq⟩ := List.mem_map.mp taken
      obtain ⟨job, host⟩ := Prod.mk.inj eq
      exact conflict (List.any_eq_true.mpr
        ⟨r, List.mem_filter.mpr ⟨mem, by simp [job]⟩, by simp [host]⟩)
  | insertAutoJob new hostId =>
    simp only [run, Option.ite_none_right_eq_some] at ran
    cases ran.2
    exact .inr ⟨(db.nextId, hostId), by simp [Db.insertJobHost, Db.insertJob, PatchJobHost.pair],
      .inr rfl⟩
  | updateHosts u =>
    cases ran
    refine .inl ?_
    rw [Sql.Update.apply, List.map_map]
    exact List.map_congr_left fun r _ => by simp [PatchJobHost.pair]
  | insertJob new =>
    simp only [run, Option.ite_none_right_eq_some] at ran
    cases ran.2
    exact .inl rfl
  | select q =>
    obtain ⟨_, -, eq⟩ := Option.map_eq_some_iff.mp ran
    cases eq
    exact .inl rfl
  | _ => cases ran; exact .inl rfl

theorem run_pairs (run : Run (engine cfg) s h t) (initial : Initial s) :
    PairsDistinct t.world.db := by
  induction run with
  | nil => simp [PairsDistinct, initial.patchJobHosts]
  | @snoc h u v l before step ih =>
    rcases step_db step with ⟨st, result, -, ran⟩ | ⟨-, same⟩
    · rcases Stmt.run_pairs_cases ran with kept | ⟨p, added, new⟩
      · rwa [PairsDistinct, kept]
      · rw [PairsDistinct, added]
        refine List.nodup_append.mpr ⟨ih, List.nodup_singleton p, ?_⟩
        rintro q old q' last rfl
        obtain rfl := List.mem_singleton.mp last
        rcases new with absent | fresh
        · exact absent old
        · -- a row of the new job would have a parent with an identifier not handed out yet
          obtain ⟨r, mem, rfl⟩ := List.mem_map.mp old
          obtain ⟨j, found⟩ := Option.isSome_iff_exists.mp (run_parent before initial r mem)
          obtain ⟨there, same⟩ := Sql.lookup_some found
          have below := (run_keys before initial).jobs.below j there
          rw [same] at below
          exact Nat.lt_irrefl _ (fresh ▸ below)
    · rw [PairsDistinct, same.patchJobHosts]
      exact ih

/-- The row of a pair is the only one. -/
theorem PairsDistinct.eq {r r' : PatchJobHost} (pairs : PairsDistinct db)
    (mem : r ∈ db.patchJobHosts) (mem' : r' ∈ db.patchJobHosts) (job : r.jobId = r'.jobId)
    (host : r.hostId = r'.hostId) : r = r' :=
  List.inj_on_of_nodup_map pairs mem mem' (Prod.ext job host)

end PatchManager
