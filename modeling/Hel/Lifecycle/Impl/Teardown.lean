import Hel.Lifecycle.Impl.Record

/-!
This module contains the removal of a session's target and of its managed checkout, and the two
operations that stop a session with them. SHA-256 is a parameter.
-/

namespace Hel

inductive CloseFate where
  | runs
  | fails (removed : Bool) (message : String)
  | crashes (removed : Bool)
  deriving DecidableEq

/--
Whether the command that removes a target succeeds. `container rm --force` fails on a container that
is not there, and the Docker script ends with status 2 at an overlay directory of the session when
its container is gone and not called `hel-*`.
-/
def TargetLocator.removes (isPresent : Bool) (overlays : List String) : TargetLocator → Bool
  | .localBare _ => true
  | .localPodman _ => true
  | .localDocker containerId =>
    !overlays.contains containerId || "hel-".toList.isPrefixOf containerId.toList
  | .appleContainer _ => isPresent
  | .awsEc2 .. => true
  | .sshBare .. => true
  | .sshPodman .. => true

def TargetLocator.fits : TargetLocator → TargetTemplate → Bool
  | .localBare _, .localBare => true
  | .localBare _, _ => false
  | .sshBare .., .sshBare _ => true
  | .sshBare .., _ => false
  | .sshPodman .., .sshPodman _ => true
  | .sshPodman .., _ => false
  | .awsEc2 .., .awsEc2 => true
  | .awsEc2 .., _ => false
  | .localPodman _, _ | .localDocker _, _ | .appleContainer _, _ => true

def TargetLocator.hasAddress : TargetLocator → Bool
  | .awsEc2 _ address => address.isSome
  | _ => true

def TargetLocator.closePurpose : TargetLocator → String
  | .localBare _ => "stop the local Hel worker and remove exact local Hel worker state"
  | .localPodman _ => "remove local Podman session container and Git cache snapshot"
  | .localDocker _ => "remove local Docker session container, overlay volumes, and cache state"
  | .appleContainer _ => "remove Apple session container and Git cache snapshot"
  | .awsEc2 .. => "terminate exact EC2 session instance"
  | .sshBare .. =>
    "stop the remote Hel worker and remove exact SSH session workspace and runtime state"
  | .sshPodman .. => "remove exact remote Podman session container and Git cache snapshot"

section Verify

variable (sha256 : String → List UInt8)

def isSessionId (value : String) : Bool :=
  8 ≤ value.utf8ByteSize && value.utf8ByteSize ≤ 128
    && value.toList.all (fun c => c.isAlphanum || c = '-' || c = '_')

def hexByte (byte : UInt8) : List Char :=
  [Nat.digitChar (byte.toNat / 16), Nat.digitChar (byte.toNat % 16)]

def resourceName (sessionId : String) : Except String String :=
  if isSessionId sessionId then
    let readable := ((sessionId.toList.filter Char.isAlphanum).take 12).map Char.toLower
    let digest := ((sha256 sessionId).take 3).flatMap hexByte
    .ok (String.ofList ("mj-".toList ++ readable ++ '-' :: digest))
  else
    .error "session ID must be 8-128 ASCII letters, digits, '-' or '_'"

def isHexDigit (c : Char) : Bool :=
  c.isDigit || ('a' ≤ c && c ≤ 'f') || ('A' ≤ c && c ≤ 'F')

def isRuntimeContainerId (value : String) : Bool :=
  12 ≤ value.utf8ByteSize && value.utf8ByteSize ≤ 128 && value.toList.all isHexDigit

def validEc2InstanceId (value : String) : Bool :=
  (Text.afterStart "i-".toList value.toList).any (fun rest => 8 ≤ rest.length && rest.all isHexDigit)

def isSafeWorkspace (value : String) : Bool :=
  !(["", "/", "~", "~/"].contains value) && !value.toList.contains '\x00'
    && !(Text.split '/' value.toList).contains "..".toList

def verifySessionWorkspace (workspace sessionId : String) : Except String Unit :=
  let final := (workspace.toList.reverse.dropWhile (· = '/')).takeWhile (· ≠ '/')
  if !isSafeWorkspace workspace then .error "unsafe workspace path"
  else if final.reverse = sessionId.toList then .ok ()
  else .error "refusing cleanup: workspace does not end in the exact session ID"

def verifyContainerId (expectedName containerId : String) : Except String Unit :=
  if containerId = expectedName || isRuntimeContainerId containerId then .ok ()
  else
    .error "refusing cleanup: container locator is neither the generated name nor an immutable runtime ID"

def verifyLocator (locator : TargetLocator) (sessionId : String) : Except String Unit := do
  let expectedName ← resourceName sha256 sessionId
  match locator with
  | .localBare workerRoot =>
    if workerRoot.head? = some "/" && !workerRoot.contains ".." && workerRoot.getLast? = some sessionId
    then .ok ()
    else .error "refusing cleanup: invalid local bare worker root"
  | .localPodman containerId | .localDocker containerId | .appleContainer containerId
  | .sshPodman _ containerId => verifyContainerId expectedName containerId
  | .awsEc2 instanceId _ =>
    if validEc2InstanceId instanceId then
      verifySessionWorkspace s!".local/share/hel/workspaces/{sessionId}" sessionId
    else .error "refusing cleanup: invalid EC2 instance ID"
  | .sshBare _ workspace _ => verifySessionWorkspace (Path.display workspace) sessionId

end Verify

namespace Host

open Program

section Target

variable (sha256 : String → List UInt8) (sessionId : String) (locator : TargetLocator)

def dropTarget (host : Host) : Host :=
  { host with targets := host.targets.filter (· ≠ locator) }

def dropOverlay (host : Host) : Host :=
  match locator with
  | .localDocker containerId =>
    if "hel-".toList.isPrefixOf containerId.toList then
      { host with overlays := host.overlays.filter (· ≠ containerId) }
    else host
  | _ => host

def backendLocator (session : SessionRecord) : HostM Unit := do
  let host ← get
  let template ← expect (host.config.targets.get? session.targetTemplateId)
    "session target template is missing"
  ensure (locator.fits template) "session locator/template mismatch"
  ensure locator.hasAddress "AWS locator has no address"

def executeClose : CloseFate → HostM Unit
  | .runs => do
    let host ← get
    modify (fun host => dropOverlay locator (dropTarget locator host))
    ensure (locator.removes (host.targets.contains locator) host.overlays)
      s!"{locator.closePurpose} failed"
  | .fails removed message => do
    guarded removed (modify (dropTarget locator))
    fail message
  | .crashes removed => do
    guarded removed (modify (dropTarget locator))
    crash

def closePlan (fate : CloseFate) : HostM Unit := do
  ofExcept (verifyLocator sha256 locator sessionId)
  executeClose locator fate

def cleanupTargetIsConfirmedAbsent (probe : Fate) : HostM Bool := do
  ofExcept (verifyLocator sha256 locator sessionId)
  match locator with
  | .appleContainer _ | .localDocker _ =>
    step probe
    let host ← get
    return !host.targets.contains locator
  | _ => return false

end Target

inductive CheckoutFate where
  | ok
  | error (leaves : Bool) (message : String)
  | crash (leaves : Bool)
  deriving DecidableEq

inductive PathProbe where
  | present
  | missing
  | error (message : String)
  | crash
  deriving DecidableEq

section Worktree

variable (worktree : ManagedWorktree)

def dropCheckout (leaves : Bool) (host : Host) : Host :=
  if leaves then host
  else { host with checkouts := host.checkouts.filter (· ≠ worktree.worktreeRoot) }

def removeCheckout : CheckoutFate → HostM Unit
  | .ok => modify (dropCheckout worktree false)
  | .error leaves message => do
    modify (dropCheckout worktree leaves)
    fail message
  | .crash leaves => do
    modify (dropCheckout worktree leaves)
    crash

structure RemoveFates where
  source : PathProbe
  probe : Fate
  remove : CheckoutFate
  prune : Fate
  branch : Fate
  finish : Fate
  deriving DecidableEq

def managedWorktreeCheckoutExists (probe : Fate) : HostM Bool := do
  step probe
  let host ← get
  return host.checkouts.contains worktree.worktreeRoot

variable (fates : RemoveFates)

def removeManagedWorktreeCheckout : HostM Bool :=
  match fates.source with
  | .missing => return false
  | .error message => fail message
  | .crash => crash
  | .present => do
    let present ← managedWorktreeCheckoutExists worktree fates.probe
    guarded present (removeCheckout worktree fates.remove)
    step fates.prune
    return true

def retireManagedWorktree : HostM Unit := do
  let acted ← removeManagedWorktreeCheckout worktree fates
  guarded acted (step fates.finish)

def cleanupManagedWorktree : HostM Unit := do
  let acted ← removeManagedWorktreeCheckout worktree fates
  guarded acted (do
    step fates.branch
    step fates.finish)

end Worktree

def archiveMatches (sessionId : String) (checkpoint : CheckpointMetadata) (archive : SessionArchive) :
    Bool :=
  archive.sha256 = checkpoint.sha256 && archive.sessionId = sessionId
    && archive.eventFrontier = checkpoint.eventFrontier

def passesGate (host : Host) (sessionId : String) (checkpoint : CheckpointMetadata) : Bool :=
  (host.archives checkpoint.archivePath).any (archiveMatches sessionId checkpoint)

def verifyInstalledCheckpointGate (sessionId : String) (checkpoint : CheckpointMetadata) :
    HostM Unit := do
  let host ← get
  let archive ← expect (host.archives checkpoint.archivePath)
    s!"re-open installed checkpoint {checkpoint.archivePath.display} before target cleanup"
  ensure (archive.sha256 = checkpoint.sha256)
    s!"refusing target cleanup for session {sessionId}: installed checkpoint SHA changed"
  ensure (archive.sessionId = sessionId)
    s!"refusing target cleanup for session {sessionId}: installed checkpoint belongs to session {archive.sessionId}"
  ensure (archive.eventFrontier = checkpoint.eventFrontier)
    s!"refusing target cleanup for session {sessionId}: installed checkpoint frontier changed from {checkpoint.eventFrontier} to {archive.eventFrontier}"

structure DestroyFates where
  destroying : TransitionFates
  broker : Fate
  close : CloseFate
  probe : Fate
  worktree : RemoveFates
  stopped : TransitionFates
  deriving DecidableEq

section Stop

variable (sha256 : String → List UInt8) (now : String)

def executeCloseOrConfirmAbsence (sessionId : String) (locator : TargetLocator)
    (fates : DestroyFates) : HostM Unit := do
  match ← attempt (executeClose locator fates.close) with
  | .ok () => return ()
  | .error cleanupError =>
    match ← attempt (cleanupTargetIsConfirmedAbsent sha256 sessionId locator fates.probe) with
    | .ok true => return ()
    | .ok false => fail cleanupError
    | .error probeError =>
      fail s!"target cleanup failed and exact absence could not be confirmed: {probeError}: {cleanupError}"

def tearDown (locator : TargetLocator) (fates : DestroyFates) (destroying : SessionRecord) :
    HostM Unit := do
  backendLocator locator destroying
  ofExcept (verifyLocator sha256 locator destroying.id)
  executeCloseOrConfirmAbsence sha256 destroying.id locator fates
  whenSome destroying.managedWorktree (fun worktree =>
    context "retire managed raw-session worktree after verified close"
      (retireManagedWorktree worktree fates.worktree))

def beginDestroying (fates : TransitionFates) (session : SessionRecord) : HostM Unit := do
  setRecord ({ · with state := .destroying, updatedAt := now, lastError := none })
  persistSessionRecordTransitionOrRestore fates saveLifecycleSession session
    "persist destroying state before target cleanup"

def destroyAfterVerifiedCheckpoint (verified : CheckpointMetadata) (fates : DestroyFates) :
    HostM Unit := do
  let session := (← get).record
  ensure (session.state = .closing || session.state = .destroying)
    s!"refusing to destroy session {session.id}: it is not closing or destroying"
  ensure (session.checkpoint = some verified)
    s!"refusing to destroy session {session.id}: verified checkpoint gate is stale"
  guarded (session.state = .closing) (beginDestroying now fates.destroying session)
  let destroying := (← get).record
  verifyInstalledCheckpointGate session.id verified
  context "stop the session's local Git broker" (step fates.broker)
  let locator ← expect destroying.target "session has no target"
  tearDown sha256 locator fates destroying
  setRecord ({ · with state := .stopped, target := none, updatedAt := now, lastError := none })
  persistSessionRecordTransitionOrRestore fates.stopped saveLifecycleSession destroying
    "persist stopped state after target cleanup"

structure ForceStopFates where
  broker : Fate
  close : CloseFate
  worktree : RemoveFates
  stopped : TransitionFates
  deriving DecidableEq

def forceStop (fates : ForceStopFates) : HostM Unit := do
  let session := (← get).record
  ensure session.state.isActive s!"session {session.id} is already inactive"
  let checkpoint ← expect session.checkpoint "force stop requires an existing recovery archive"
  context "verify the recovery archive before force stopping"
    (verifyInstalledCheckpointGate session.id checkpoint)
  context "stop the session's local Git broker" (step fates.broker)
  whenSome session.target (fun locator => do
    backendLocator locator session
    closePlan sha256 session.id locator fates.close)
  whenSome session.managedWorktree (fun worktree =>
    context "retire managed raw-session worktree after force stop"
      (retireManagedWorktree worktree fates.worktree))
  setRecord ({ · with
    state := .stopped, target := none, updatedAt := now, lastError := none
    lastCheckpointError := none })
  persistSessionRecordTransitionOrRestore fates.stopped saveLifecycleSession session
    "persist stopped state after force stopping the current target"

end Stop

end Host

end Hel
