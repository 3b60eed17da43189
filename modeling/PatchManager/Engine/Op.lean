import PatchManager.Audit.Action
import PatchManager.Conc.System
import PatchManager.Db.Statement
import PatchManager.Web.Headers

/-! # Operations of the job engine

The engine's tasks meet the world in single operations: one SQL statement, one call to an
agent, one action on a semaphore or on the relay's set of active pairs.  `exec` says which
answers an operation can get and what the world is afterwards.  A statement or a call can
fail at any time; a statement that fails has no effect.

`exec_db` says that the database changes by the statements that took effect alone.
-/

namespace PatchManager

open PatchManager.Conc

/-! ## Requests to the web API -/

structure CreateJobRequest where
  hostIds : List Uuid
  packages : List String
  immediate : Bool
  maintenanceWindowId : Option Uuid := none
  allowReboot : Bool := true
  rebootDelaySeconds : Int := 0
  notes : Option String := none
  kind : Option JobKind := none

/-- The arguments of `log_event`. -/
structure AuditEntry where
  action : AuditAction
  actorUserId : Option Uuid := none
  actorUsername : Option String := none
  targetType : Option String
  targetId : Option String
  details : Json

/-! ## Functions that run as tasks -/

/-- The functions a task can be started as, with their arguments, and the loops that tasks
    re-enter. -/
inductive Fn where
  | processJob (jobId : Uuid)
  /-- with the semaphore whose permit the task gives back when it ends -/
  | executeHostJob (jobId hostId pjhId : Uuid) (permit : Option Nat)
  | pollSingleHost (row : PatchJobHostRunning)
  | reconnectLoop (row : PatchJobHostRunning) (client : AgentClient)
      (targetVersion oldVersion : Option String) (elapsed : UInt64)
  | jobEmails (jobId : Uuid) (total succeeded failed : Nat)
  | periodicScan
  | schedulerTick
  | relayTick
  | relayOneJob (row : RunningHostJob)
  | relayStream (row : RunningHostJob)
  | relayPoll (row : RunningHostJob) (client : AgentClient) (lastStatus : Option String)
  | createJob (auth : AuthUser) (req : CreateJobRequest)
  | cancelJob (auth : AuthUser) (id : Uuid)
  | rollbackJob (auth : AuthUser) (id : Uuid)
  | insertUpgradeJobs (auth : AuthUser) (immediate : Bool) (maintenanceWindowId : Option Uuid)
      (groups : List (String × List Uuid)) (skippedCount : Nat)

/-! ## Operations -/

/-- What the job stream of an agent delivers.  A text or binary frame is an event when it
    parses as one. -/
inductive Frame where
  | error (reason : String)
  | close
  | message (parsed : Option AgentWsEvent)
  | other

inductive Op where
  | sql (s : Stmt)
  | utcNow
  | sleep (seconds : Nat)
  | loadAgentCerts
  /-- the TLS part of `AgentClient::new` -/
  | newClient (client : AgentClient)
  /-- The three submissions name the host row they are made for, which is not sent. -/
  | applyPatches (pjhId : Uuid) (client : AgentClient) (req : ApplyPatchesRequest)
  | reboot (pjhId : Uuid) (client : AgentClient) (req : RebootRequest)
  | updatePackage (pjhId : Uuid) (client : AgentClient) (package : String)
  | jobStatus (client : AgentClient) (agentJobId : String)
  | health (client : AgentClient)
  | buildTlsConfig
  | readCertPems
  | connectWs (url : String)
  | nextFrame (url : String)
  | newSemaphore (permits : Nat)
  | acquire (semaphore : Nat)
  | release (semaphore : Nat)
  | activeContains (key : Uuid × Uuid)
  | activeInsert (key : Uuid × Uuid)
  | activeRemove (key : Uuid × Uuid)
  | sendJobCompletionEmail (jobId : String) (hostCount succeededCount failedCount : Nat)
  | sendPatchFailureEmail (hostFqdn jobId errorMessage : String)
  | logEvent (entry : AuditEntry)

namespace Op

/-- The answers to an operation.  The text of a database error is what its `Display`
    writes. -/
@[reducible] def Resp : Op → Type
  | sql s => Except String s.Result
  | utcNow => Time
  | loadAgentCerts | buildTlsConfig | readCertPems | connectWs _ => Except String Unit
  | newClient _ => Except AgentClientError Unit
  | applyPatches _ _ _ | reboot _ _ _ | updatePackage _ _ _ =>
    Except AgentClientError SubmitResponse
  | jobStatus _ _ => Except AgentClientError AgentJobStatus
  | health _ => Except AgentClientError HealthData
  | nextFrame _ => Option Frame
  | newSemaphore _ => Nat
  | activeContains _ => Bool
  | _ => Unit

/-- The host row a submission to an agent is made for. -/
def submission? : Op → Option Uuid
  | applyPatches pjhId _ _ | reboot pjhId _ _ | updatePackage pjhId _ _ => some pjhId
  | _ => none

end Op

abbrev Proc := Prog Op Op.Resp Fn

abbrev perform (o : Op) : Proc o.Resp := Prog.perform o

abbrev fork (f : Fn) : Proc Unit := Prog.fork f

abbrev sql (s : Stmt) : Proc (Except String s.Result) := perform (.sql s)

abbrev query (q : Query) : Proc (Except String q.Result) := perform (.sql (.select q))

/-! ## The world -/

/-- What the tasks share: the database, the semaphores' free permits and the pairs that
    have a relay. -/
structure World where
  db : Db
  semaphores : List Nat := []
  active : List (Uuid × Uuid) := []

/-- The answers an operation can get in `w`, and the world afterwards. -/
def exec (w : World) : (o : Op) → o.Resp → World → Prop
  | .sql s, answer, w' =>
    (∃ reason, answer = .error reason ∧ w' = w) ∨
      ∃ result db, s.run w.db = some (result, db) ∧ answer = .ok result ∧ w' = { w with db }
  | .utcNow, now, w' => now = w.db.now ∧ w' = w
  | .newSemaphore permits, semaphore, w' =>
    semaphore = w.semaphores.length ∧ w' = { w with semaphores := w.semaphores ++ [permits] }
  | .acquire semaphore, _, w' =>
    ∃ free, w.semaphores[semaphore]? = some (free + 1) ∧
      w' = { w with semaphores := w.semaphores.set semaphore free }
  | .release semaphore, _, w' =>
    w' = { w with semaphores := w.semaphores.modify semaphore (· + 1) }
  | .activeContains key, found, w' => found = w.active.contains key ∧ w' = w
  | .activeInsert key, _, w' => w' = { w with active := w.active.insert key }
  | .activeRemove key, _, w' => w' = { w with active := w.active.erase key }
  | _, _, w' => w' = w

/-! ## Statements that took effect -/

/-- The statement an operation has carried out, given its answer. -/
def Op.took : (o : Op) → o.Resp → Option Stmt
  | .sql s, .ok _ => some s
  | _, _ => none

variable {w w' : World} {o : Op} {answer : o.Resp}

/-- A statement that took effect has run; nothing else changes the database. -/
theorem exec_db (done : exec w o answer w') :
    (∃ s result, o.took answer = some s ∧ s.run w.db = some (result, w'.db)) ∨
      (o.took answer = none ∧ w'.db = w.db) := by
  cases o with
  | sql s =>
    rcases done with ⟨_, rfl, rfl⟩ | ⟨result, db, ran, rfl, rfl⟩
    · exact .inr ⟨rfl, rfl⟩
    · exact .inl ⟨s, result, rfl, ran⟩
  | acquire => obtain ⟨_, -, rfl⟩ := done; exact .inr ⟨rfl, rfl⟩
  | utcNow => obtain ⟨-, rfl⟩ := done; exact .inr ⟨rfl, rfl⟩
  | newSemaphore => obtain ⟨-, rfl⟩ := done; exact .inr ⟨rfl, rfl⟩
  | activeContains => obtain ⟨-, rfl⟩ := done; exact .inr ⟨rfl, rfl⟩
  | _ => cases done; exact .inr ⟨rfl, rfl⟩

/-- A query that succeeded returned what it evaluates to. -/
theorem exec_select {q : Query} {result : q.Result}
    (done : exec w (.sql (.select q)) (.ok result) w') :
    q.eval w.db = some result ∧ w' = w := by
  rcases done with ⟨_, eq, -⟩ | ⟨result, db, ran, eq, rfl⟩
  · cases eq
  · obtain ⟨_, found, pair⟩ := Option.map_eq_some_iff.mp ran
    cases pair
    cases eq
    exact ⟨found, rfl⟩

end PatchManager
