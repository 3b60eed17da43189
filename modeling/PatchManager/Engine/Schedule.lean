import PatchManager.Conc.Solo
import PatchManager.Engine.System

/-! # Playing schedules of the engine

`enginePlayer` makes the choices the engine leaves open by a list of moves, so that a
concrete interleaving of its tasks can be computed.  The schedules of this development
play on one small installation.
-/

namespace PatchManager

open PatchManager.Conc

/-- What an operation is answered in a schedule. -/
inductive Answer where
  | ok
  | fail
  /-- a submission is accepted under this agent job id -/
  | accepted (agentJobId : String)
  | status (s : AgentJobStatus)
  | version (v : String)
  | frame (f : Option Frame)

def executeSql (w : World) (s : Stmt) : Option (Except String s.Result × World) :=
  (s.run w.db).map fun (result, db) => (.ok result, { w with db })

theorem executeSql_sound {w w' : World} {s : Stmt} {answer : Except String s.Result}
    (executed : executeSql w s = some (answer, w')) : exec w (.sql s) answer w' := by
  obtain ⟨⟨result, db⟩, ran, eq⟩ := Option.map_eq_some_iff.mp executed
  cases eq
  exact .inr ⟨result, db, ran, rfl, rfl⟩

def tryAcquire (w : World) (semaphore : Nat) : Option (Unit × World) :=
  match w.semaphores[semaphore]? with
  | some (free + 1) => some ((), { w with semaphores := w.semaphores.set semaphore free })
  | _ => none

theorem tryAcquire_sound {w w' : World} {semaphore : Nat} {answer : Unit}
    (executed : tryAcquire w semaphore = some (answer, w')) :
    exec w (.acquire semaphore) answer w' := by
  unfold tryAcquire at executed
  split at executed
  · rename_i found
    cases executed
    exact ⟨_, found, rfl⟩
  · cases executed

/-- The answer to an operation and the world after it, if `a` is an answer to it. -/
def execute (w : World) : (o : Op) → Answer → Option (o.Resp × World)
  | .sql s, .ok => executeSql w s
  | .sql _, .fail => some (.error "connection closed", w)
  | .utcNow, .ok => some (w.db.now, w)
  | .sleep _, .ok => some ((), w)
  | .loadAgentCerts, .ok => some (.ok (), w)
  | .newClient _, .ok => some (.ok (), w)
  | .applyPatches _ _ _, .accepted agentJobId => some (.ok ⟨agentJobId, "queued"⟩, w)
  | .applyPatches _ _ _, .fail => some (.error .timeout, w)
  | .reboot _ _ _, .accepted agentJobId => some (.ok ⟨agentJobId, "queued"⟩, w)
  | .updatePackage _ _ _, .accepted agentJobId => some (.ok ⟨agentJobId, "queued"⟩, w)
  | .jobStatus _ _, .status s => some (.ok s, w)
  | .jobStatus _ _, .fail => some (.error .timeout, w)
  | .health _, .version v => some (.ok { version := v }, w)
  | .buildTlsConfig, .ok => some (.ok (), w)
  | .readCertPems, .ok => some (.ok (), w)
  | .connectWs _, .ok => some (.ok (), w)
  | .connectWs _, .fail => some (.error "connection refused", w)
  | .nextFrame _, .frame f => some (f, w)
  | .newSemaphore permits, .ok =>
    some (w.semaphores.length, { w with semaphores := w.semaphores ++ [permits] })
  | .acquire semaphore, .ok => tryAcquire w semaphore
  | .release semaphore, .ok =>
    some ((), { w with semaphores := w.semaphores.modify semaphore (· + 1) })
  | .activeContains key, .ok => some (w.active.contains key, w)
  | .activeInsert key, .ok => some ((), { w with active := w.active.insert key })
  | .activeRemove key, .ok => some ((), { w with active := w.active.erase key })
  | .sendJobCompletionEmail _ _ _ _, .ok => some ((), w)
  | .sendPatchFailureEmail _ _ _, .ok => some ((), w)
  | .logEvent _, .ok => some ((), w)
  | _, _ => none

theorem execute_sound {w : World} {o : Op} {a : Answer} {answer : o.Resp} {w' : World}
    (executed : execute w o a = some (answer, w')) : exec w o answer w' := by
  unfold execute at executed
  split at executed
  all_goals
    first
    | exact executeSql_sound executed
    | exact tryAcquire_sound executed
    | contradiction
    | cases executed; first | rfl | exact ⟨rfl, rfl⟩ | exact .inl ⟨_, rfl, rfl⟩

/-- The world after a call from outside, if it can be made. -/
def call (s : State) : Fn → Option World
  | .processJob jobId =>
    if jobId ∈ s.world.db.jobEnqueued then
      some { s.world with
              db := { s.world.db with jobEnqueued := s.world.db.jobEnqueued.erase jobId } }
    else none
  | f => if f.isRequest || f.isTick && tickIdle s f then some s.world else none

theorem call_sound {s : State} {f : Fn} {w : World} (called : call s f = some w) :
    enter s f w := by
  cases f with
  | processJob jobId =>
    simp only [call, Option.ite_none_right_eq_some, Option.some.injEq] at called
    exact ⟨called.1, called.2.symm⟩
  | _ =>
    simp only [call, Option.ite_none_right_eq_some, Option.some.injEq, Bool.or_eq_true,
      Bool.and_eq_true] at called
    exact ⟨called.1, called.2.symm⟩

/-- Lets time pass. -/
def advance (w : World) (elapsed : Nat) : World :=
  { w with db := { w.db with now := w.db.now + elapsed } }

def enginePlayer (cfg : WorkerConfig) : Player (engine cfg) where
  Answer := Answer
  Change := Nat
  execute := execute
  call := call
  change := advance
  execute_sound := execute_sound
  call_sound := call_sound
  change_sound w elapsed :=
    ⟨by simp [advance], rfl, rfl, rfl, List.Sublist.refl _, rfl, rfl⟩

/-! ## One task of the engine -/

/-- What a task of the engine is told, whatever else goes on. -/
abbrev EngineAnswers := Answers Op Op.Resp

abbrev EngineCourse := Course Op Op.Resp Fn Unit

/-- No statement succeeds and no call is answered. -/
def unanswered : EngineAnswers := fun _ o =>
  match o with
  | .sql _ | .loadAgentCerts | .buildTlsConfig | .readCertPems | .connectWs _ => .error ""
  | .newClient _ | .applyPatches _ _ _ | .reboot _ _ _ | .updatePackage _ _ _ | .jobStatus _ _
  | .health _ => .error .timeout
  | .utcNow => (0 : Int)
  | .nextFrame _ => none
  | .newSemaphore _ => (0 : Nat)
  | .activeContains _ => false
  | .sleep _ | .acquire _ | .release _ | .activeInsert _ | .activeRemove _
  | .sendJobCompletionEmail _ _ _ _ | .sendPatchFailureEmail _ _ _ | .logEvent _ => ()

/-! ## A small installation -/

namespace Small

def config : WorkerConfig where
  maxConcurrentAgentCalls := 4
  wsRelayPollIntervalSecs := 5
  selfUpgradeReconnectTimeoutSecs := 300
  selfUpgradeReconnectPollIntervalSecs := 10
  jobTimeoutSecs := 0

def host : Host := { id := 100, fqdn := "web1", ipAddress := "10.0.0.1", agentPort := 12443 }

def start : State := ⟨{ db := { now := 0, hosts := [host] } }, []⟩

theorem start_initial : Initial start := ⟨rfl, rfl, rfl, rfl⟩

def user : AuthUser := ⟨7, "alice", .operator⟩

abbrev player : Player (engine config) := enginePlayer config

/-- The task takes `n` steps that all go well. -/
def steps (tid n : Nat) : List (Move player) := List.replicate n (.run tid .ok)

/-- The first job to be created gets identifier 1, its host row 2. -/
def immediateJob : CreateJobRequest := { hostIds := [100], packages := ["curl"], immediate := true }

/-- Task 0 creates the immediate job. -/
def creates : List (Move player) := .call (.createJob user immediateJob) :: steps 0 3

/-- The listener starts task `tid` for job 1, which starts the execution of its row. -/
def processes (tid : Nat) : List (Move player) := .call (.processJob 1) :: steps tid 5

/-- An execution of a patch job up to the agent's answer and its record. -/
def submits (tid : Nat) (agentJobId : String) : List (Move player) :=
  steps tid 7 ++ .run tid (.accepted agentJobId) :: steps tid 1

/-- The scan, as task `tid`, finds no queued row and starts the poll of a running one. -/
def polls (tid : Nat) : List (Move player) := .call .periodicScan :: steps tid 3

/-- The poll, as task `tid`, gets this answer from the agent. -/
def answers (tid : Nat) (agentJobId status : String) : List (Move player) :=
  steps tid 2 ++ [.run tid (.status { jobId := agentJobId, status })]

end Small

end PatchManager
