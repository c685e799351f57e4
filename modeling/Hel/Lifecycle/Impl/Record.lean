import Hel.Data.Program
import Hel.Lifecycle.Impl.GitCache
import Hel.Worker.Impl.Snapshot

/-!
This module contains the record of a session, the row that is stored of it, and everything of the
machine that the lifecycle operations of the controller change.
-/

namespace Hel

inductive SessionState where
  | provisioning
  | running
  | disconnected
  | checkpointing
  | closing
  | destroying
  | stopped
  | lost
  | error
  | destroyedWithDataLoss
  deriving DecidableEq

def SessionState.isActive : SessionState → Bool
  | .provisioning | .running | .disconnected | .checkpointing | .closing | .destroying | .error => true
  | .stopped | .lost | .destroyedWithDataLoss => false

inductive TargetLocator where
  | localBare (workerRoot : Path)
  | localPodman (containerId : String)
  | localDocker (containerId : String)
  | appleContainer (containerId : String)
  | awsEc2 (instanceId : String) (address : Option String)
  | sshBare (host : String) (workspace : Path) (workerId : Option String)
  | sshPodman (host containerId : String)
  deriving DecidableEq

inductive ManagedWorktreeTarget where
  | thisMachine
  | ssh (ssh : SshTarget)
  deriving DecidableEq

structure ManagedWorktree where
  sourceProjectDirectory : Path
  sourceRepository : Path
  worktreeRoot : Path
  branch : String
  target : ManagedWorktreeTarget
  deriving DecidableEq

structure CheckpointMetadata where
  archivePath : Path
  sha256 : String
  createdAt : String
  eventFrontier : Nat
  deriving DecidableEq

structure SessionRecord where
  id : String
  harnessKind : HarnessKind
  lastProfile : String
  bundleId : String
  projectDirectory : Option Path
  managedWorktree : Option ManagedWorktree
  targetTemplateId : String
  state : SessionState
  target : Option TargetLocator
  updatedAt : String
  lastError : Option String
  lastCheckpointError : Option String
  checkpoint : Option CheckpointMetadata
  deriving DecidableEq

structure HelConfig where
  targets : BTreeMap String TargetTemplate

structure SessionArchive where
  sha256 : String
  sessionId : String
  eventFrontier : Nat
  deriving DecidableEq

/-- The controller's copy of a session's record and its row, and the machine around them. -/
structure Host where
  record : SessionRecord
  row : SessionRecord
  config : HelConfig
  targets : List TargetLocator
  overlays : List String
  checkouts : List Path
  archives : Path → Option SessionArchive

abbrev HostM := Program Host

namespace Host

open Program

def setRecord (f : SessionRecord → SessionRecord) : HostM Unit :=
  modify (fun host => { host with record := f host.record })

def store (row : SessionRecord) (host : Host) : Host :=
  { host with row := row }

section Database

variable (fate : Fate)

def write (f : SessionRecord → SessionRecord) : HostM Unit := do
  step fate
  modify (fun host => host.store (f host.row))

def lifecycleFields (session row : SessionRecord) : SessionRecord :=
  { row with
    harnessKind := session.harnessKind
    lastProfile := session.lastProfile
    targetTemplateId := session.targetTemplateId
    state := session.state
    updatedAt := session.updatedAt
    lastError := session.lastError
    lastCheckpointError := session.lastCheckpointError
    projectDirectory := session.projectDirectory
    managedWorktree := session.managedWorktree
    target := session.target }

def saveLifecycleSession (session : SessionRecord) : HostM Unit :=
  write fate (lifecycleFields session)

def saveSession (session : SessionRecord) : HostM Unit :=
  write fate (fun _ => session)

end Database

structure TransitionFates where
  persist : Fate
  restore : Fate
  deriving DecidableEq

section Transition

variable (fates : TransitionFates) (persist : Fate → SessionRecord → HostM Unit)

def restoreSessionAfterPersistenceFailure (previous : SessionRecord) (primary : String) :
    HostM String := do
  setRecord (fun _ => previous)
  match ← attempt (persist fates.restore previous) with
  | .ok () => return primary
  | .error error =>
    return s!"restored prior session state in memory, but failed to persist the rollback: {error}: {primary}"

def persistSessionRecordTransitionOrRestore (previous : SessionRecord) (context : String) :
    HostM Unit := do
  let host ← get
  match ← attempt (persist fates.persist host.record) with
  | .ok () => return ()
  | .error error =>
    let failure ← restoreSessionAfterPersistenceFailure fates persist previous s!"{context}: {error}"
    fail failure

end Transition

def load (host : Host) : Host :=
  { host with record := host.row }

end Host

end Hel
