import Hel.Lifecycle.Impl.Teardown

/-!
This module contains the two places at which a resume removes a target: what a failed resume has left,
before the next one begins, and what a resume has made itself, when it fails.
-/

namespace Hel

namespace Host

open Program

variable (sha256 : String → List UInt8)

def cleanUpLeftover (close : CloseFate) (session : SessionRecord) : HostM Unit :=
  guarded (session.state = .error) (whenSome session.target (fun locator => do
    backendLocator locator session
    context "clean up target from failed resume" (closePlan sha256 session.id locator close)))

structure RollbackFates where
  close : CloseFate
  worktree : RemoveFates
  rebind : Fate
  save : Fate
  deriving DecidableEq

def rollbackWorktree (previous current : Option ManagedWorktree) (recreated : Bool)
    (fates : RemoveFates) : HostM Unit :=
  match current, previous with
  | none, none => return ()
  | some current, none => cleanupManagedWorktree current fates
  | none, some previous => guarded recreated (retireManagedWorktree previous fates)
  | some current, some previous =>
    if recreated then retireManagedWorktree previous fates
    else guarded (current ≠ previous) (cleanupManagedWorktree current fates)

def applyFailedResumeRollback (now : String) (current previous : SessionRecord)
    (originalError : String) : Option String → SessionRecord × String
  | none =>
    ({ previous with
        state := .stopped, target := none, updatedAt := now
        lastError := some s!"resume failed: {originalError}" },
      originalError)
  | some cleanupError =>
    let failure := s!"{originalError}; cleanup of the partial resume target failed: {cleanupError}"
    -- the locator stays, so that the leftover target can still be cleaned up
    ({ current with
        projectDirectory := previous.projectDirectory
        managedWorktree := previous.managedWorktree
        bundleId := previous.bundleId
        state := .error, updatedAt := now
        lastError := some s!"resume failed: {failure}" },
      failure)

def errorOf : Except String Unit → Option String
  | .ok () => none
  | .error message => some message

def cleanupError (results : List (Except String Unit)) : Option String :=
  let text := "; ".intercalate (results.filterMap errorOf)
  if text = "" then none else some text

def saveRolledBack (current : SessionRecord) (fates : RollbackFates) (record : SessionRecord) :
    HostM Unit := do
  setRecord (fun _ => record)
  guarded (record.bundleId ≠ current.bundleId) (step fates.rebind)
  saveSession fates.save record

def rollbackFailedResume (now : String) (previous : SessionRecord)
    (recreatedManagedWorktree : Bool) (error : String) (fates : RollbackFates) : HostM String := do
  let current := (← get).record
  let cleanup ← attempt (whenSome current.target (fun locator => do
    backendLocator locator current
    closePlan sha256 current.id locator fates.close))
  let worktreeCleanup ← attempt (rollbackWorktree previous.managedWorktree current.managedWorktree
    recreatedManagedWorktree fates.worktree)
  let result := applyFailedResumeRollback now current previous error
    (cleanupError [cleanup, worktreeCleanup])
  saveRolledBack current fates result.1
  return result.2

end Host

end Hel
