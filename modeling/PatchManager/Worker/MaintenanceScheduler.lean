import PatchManager.Worker.JobExecutor

/-! # The maintenance scheduler

The functions of `maintenance_scheduler.rs`: one tick creates the automatic jobs of the
open windows and dispatches the queued jobs of their hosts.
-/

namespace PatchManager

open PatchManager.Conc

/-! ## Automatic jobs -/

/-- The job of an open window; it covers the window's host. -/
def autoJob (win : AutoApplyWindow) : NewJob where
  kind := .patchApply
  createdByUserId := none
  maintenanceWindowId := some win.windowId
  immediate := false
  patchSelection := .arr []
  notes := "Auto-created by maintenance window scheduler"
  autoHostId := some win.hostId
  allowReboot := win.autoReboot
  rebootDelaySeconds := win.rebootDelayMinutes * 60

/-- Creates the job of one window, unless there is nothing to apply or it had one in this
    cycle. -/
def autoCreateFor (win : AutoApplyWindow) : Proc Unit := do
  match ← query (.pendingPatches win.hostId) with
  | .error _ => return ()
  | .ok none => return ()
  | .ok (some _) =>
    match ← query (.jobThisCycle win.hostId win.windowId) with
    | .error _ => return ()
    | .ok existingJob =>
      if existingJob then return ()
      else
        let _ ← sql (.insertAutoJob (autoJob win) win.hostId)

def autoCreateEach : List AutoApplyWindow → Proc Unit
  | [] => return ()
  | win :: rest => do
    autoCreateFor win
    autoCreateEach rest

def autoCreatePatchJobs : Proc Unit := do
  match ← query .autoWindows with
  | .error _ => return ()
  | .ok autoWindows => autoCreateEach autoWindows

/-! ## Dispatch -/

def dispatchForHosts : List Uuid → Proc Unit
  | [] => return ()
  | hostId :: rest => do
    match ← query (.queuedNonImmediate hostId) with
    | .error _ => dispatchForHosts rest
    | .ok jobIds =>
      forkEach .processJob jobIds
      dispatchForHosts rest

def dispatchOpenWindowJobs : Proc Unit := do
  match ← query .openWindowHosts with
  | .error _ => return ()
  | .ok openHosts => dispatchForHosts openHosts

/-- One tick of `run_maintenance_scheduler`. -/
def schedulerTick : Proc Unit := do
  autoCreatePatchJobs
  dispatchOpenWindowJobs

end PatchManager
