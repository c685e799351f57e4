import Hel.Lifecycle.Impl.Resume

/-!
This module contains what becomes of a teardown that is repeated after its target is gone.
-/

namespace Hel

namespace Host

open Program

inductive Teardown where
  | destroy (fates : DestroyFates)
  | forceStop (fates : ForceStopFates)
  | leftover (close : CloseFate)
  | rollback (previous : SessionRecord) (recreated : Bool) (error : String) (fates : RollbackFates)

def RemoveFates.Clear (fates : RemoveFates) : Prop :=
  (fates.source = .present ∨ fates.source = .missing) ∧ fates.probe = .ok ∧ fates.remove = .ok
    ∧ fates.prune = .ok ∧ fates.branch = .ok ∧ fates.finish = .ok

namespace Teardown

variable (sha256 : String → List UInt8) (now : String)

def run : Teardown → HostM Unit
  | destroy fates => do
    let host ← get
    let checkpoint ← expect host.record.checkpoint "session has no checkpoint"
    destroyAfterVerifiedCheckpoint sha256 now checkpoint fates
  | forceStop fates => Host.forceStop sha256 now fates
  | leftover close => do
    let host ← get
    cleanUpLeftover sha256 close host.record
  | rollback previous recreated error fates => do
    let _ ← rollbackFailedResume sha256 now previous recreated error fates

def confirmsAbsence : Teardown → Bool
  | destroy _ => true
  | _ => false

def Allowed (state : SessionState) : Teardown → Prop
  | destroy _ => state = .closing ∨ state = .destroying
  | forceStop _ => state.isActive = true
  | leftover _ => state = .error
  | rollback .. => True

/-- Nothing but the state of the target stands in the way of the operation. -/
def Unhindered (host : Host) : Teardown → Prop
  | destroy fates =>
    (∃ checkpoint, host.record.checkpoint = some checkpoint
      ∧ host.passesGate host.record.id checkpoint = true)
      ∧ fates.destroying.persist = .ok ∧ fates.broker = .ok ∧ fates.close = .runs ∧ fates.probe = .ok
      ∧ fates.worktree.Clear ∧ fates.stopped.persist = .ok
  | forceStop fates =>
    (∃ checkpoint, host.record.checkpoint = some checkpoint
      ∧ host.passesGate host.record.id checkpoint = true)
      ∧ fates.broker = .ok ∧ fates.close = .runs ∧ fates.worktree.Clear ∧ fates.stopped.persist = .ok
  | leftover close => close = .runs
  | rollback _ _ _ fates =>
    fates.close = .runs ∧ fates.worktree.Clear ∧ fates.rebind = .ok ∧ fates.save = .ok

def Completes : Teardown → Outcome Unit × Host → Prop
  | leftover _, result => result.1 = .ok ()
  | _, result => result.1 = .ok () ∧ result.2.row.state = .stopped ∧ result.2.row.target = none

end Teardown

def Idempotent (overlays : List String) : TargetLocator → Prop
  | .appleContainer _ => False
  | .localDocker containerId => containerId ∉ overlays
  | _ => True

section Removal

variable {sha256 : String → List UInt8} {sessionId : String} {locator : TargetLocator} {host : Host}

theorem resourceName_ok {name : String} (h : resourceName sha256 sessionId = .ok name)
    : ∃ rest, name.toList = 'm' :: rest := by
  unfold resourceName at h
  split at h
  . cases h
    exact ⟨_, String.toList_ofList⟩
  . cases h

-- A container that the verification accepts is never called `hel-*`.
theorem not_isPrefixOf_of_verified {containerId name : String}
    (hname : resourceName sha256 sessionId = .ok name)
    (h : verifyContainerId name containerId = .ok ())
    : "hel-".toList.isPrefixOf containerId.toList = false := by
  unfold verifyContainerId at h
  split at h
  next haccepted =>
    simp only [Bool.or_eq_true, decide_eq_true_eq] at haccepted
    rcases haccepted with rfl | hruntime
    . obtain ⟨rest, hrest⟩ := resourceName_ok hname
      rw [hrest]
      rfl
    . cases hchars : containerId.toList with
      | nil => rfl
      | cons c rest =>
        by_cases hc : c = 'h'
        . simp [isRuntimeContainerId, hchars, hc, isHexDigit, Char.isDigit] at hruntime
        . simp [List.isPrefixOf, Ne.symm hc]
  next => cases h

theorem removes_absent_iff {overlays : List String}
    (h : verifyLocator sha256 locator sessionId = .ok ())
    : locator.removes false overlays = true ↔ Idempotent overlays locator := by
  cases locator with
  | localDocker containerId =>
    cases hname : resourceName sha256 sessionId with
    | error e => simp [verifyLocator, hname, Bind.bind, Except.bind] at h
    | ok name =>
    have hverified : verifyContainerId name containerId = .ok () := by
      simpa [verifyLocator, hname, Bind.bind, Except.bind] using h
    simp only [TargetLocator.removes, not_isPrefixOf_of_verified hname hverified, Bool.or_false]
    simp [Idempotent]
  | _ => simp [TargetLocator.removes, Idempotent]

def closed (locator : TargetLocator) (host : Host) : Host :=
  dropOverlay locator (dropTarget locator host)

theorem not_mem_targets_closed : locator ∉ (closed locator host).targets := by
  unfold closed dropOverlay
  split
  . split <;> simp [dropTarget]
  . simp [dropTarget]

theorem executeClose_of_removes
    (h : locator.removes (host.targets.contains locator) host.overlays = true)
    : executeClose locator .runs host = (.ok (), closed locator host) := by
  simp only [executeClose, get_bind, modify_bind, h, ensure_true]
  rfl

theorem executeClose_of_not_removes
    (h : locator.removes (host.targets.contains locator) host.overlays = false)
    : executeClose locator .runs host
        = (.error s!"{locator.closePurpose} failed", closed locator host) := by
  simp only [executeClose, get_bind, modify_bind, h]
  rfl

section Verified

variable (hverified : verifyLocator sha256 locator sessionId = .ok ())

include hverified

theorem closePlan_eq {fate : CloseFate}
    : closePlan sha256 sessionId locator fate host = executeClose locator fate host := by
  unfold closePlan
  rw [hverified, ofExcept_ok_bind]

theorem cleanupTargetIsConfirmedAbsent_of_not_removes {isPresent : Bool} {overlays : List String}
    (h : locator.removes isPresent overlays = false) (habsent : locator ∉ host.targets)
    : cleanupTargetIsConfirmedAbsent sha256 sessionId locator .ok host = (.ok true, host) := by
  unfold cleanupTargetIsConfirmedAbsent
  rw [hverified, ofExcept_ok_bind]
  cases locator with
  | appleContainer containerId | localDocker containerId => simp [habsent]
  | _ => simp [TargetLocator.removes] at h

theorem executeCloseOrConfirmAbsence_of_runs {fates : DestroyFates} (hclose : fates.close = .runs)
    (hprobe : fates.probe = .ok)
    : executeCloseOrConfirmAbsence sha256 sessionId locator fates host
        = (.ok (), closed locator host) := by
  unfold executeCloseOrConfirmAbsence
  rw [hclose, hprobe]
  cases h : locator.removes (host.targets.contains locator) host.overlays with
  | true =>
    rw [bind_of_ok (attempt_of_ok (executeClose_of_removes h))]
    rfl
  | false =>
  rw [bind_of_ok (attempt_of_error (executeClose_of_not_removes h))]
  dsimp only
  rw [bind_of_ok (attempt_of_ok
    (cleanupTargetIsConfirmedAbsent_of_not_removes hverified h not_mem_targets_closed))]
  rfl

end Verified

end Removal

structure Placed (sha256 : String → List UInt8) (host : Host) (locator : TargetLocator) : Prop where
  target : host.record.target = some locator
  template : ∃ template, host.config.targets.get? host.record.targetTemplateId = some template
    ∧ locator.fits template = true
  address : locator.hasAddress = true
  verified : verifyLocator sha256 locator host.record.id = .ok ()

theorem Placed.backendLocator_eq {sha256 : String → List UInt8} {host host' : Host}
    {locator : TargetLocator} {session : SessionRecord} (h : Placed sha256 host locator)
    (hsession : session.targetTemplateId = host.record.targetTemplateId)
    (hconfig : host'.config = host.config)
    : backendLocator locator session host' = (.ok (), host') := by
  obtain ⟨template, htemplate, hfits⟩ := h.template
  rw [← hsession, ← hconfig] at htemplate
  simp [backendLocator, htemplate, hfits, h.address]

section Stop

variable {host : Host}

theorem passesGate_eq_true {sessionId : String} {checkpoint : CheckpointMetadata}
    (h : host.passesGate sessionId checkpoint = true)
    : verifyInstalledCheckpointGate sessionId checkpoint host = (.ok (), host) := by
  unfold passesGate at h
  cases harchive : host.archives checkpoint.archivePath with
  | none => simp [harchive] at h
  | some archive =>
  simp only [harchive, Option.any_some, archiveMatches, Bool.and_eq_true] at h
  simp only [verifyInstalledCheckpointGate, get_bind, harchive, expect_some_bind, h,
    ensure_true_bind, ensure_true]

theorem removeManagedWorktreeCheckout_of_clear (host : Host) (worktree : ManagedWorktree)
    {fates : RemoveFates} (h : fates.Clear)
    : ∃ acted host', removeManagedWorktreeCheckout worktree fates host = (.ok acted, host') := by
  obtain ⟨hsource, hprobe, hremove, hprune, _⟩ := h
  unfold removeManagedWorktreeCheckout
  cases hsource with
  | inr hmissing =>
    refine ⟨false, host, ?_⟩
    simp [hmissing]
  | inl hpresent =>
  by_cases hexists : worktree.worktreeRoot ∈ host.checkouts
  . refine ⟨true, dropCheckout worktree false host, ?_⟩
    simp [hpresent, managedWorktreeCheckoutExists, hprobe, hexists, hremove, removeCheckout, hprune]
  . refine ⟨true, host, ?_⟩
    simp [hpresent, managedWorktreeCheckoutExists, hprobe, hexists, hprune]

theorem retireManagedWorktree_of_clear (host : Host) (worktree : ManagedWorktree)
    {fates : RemoveFates} (h : fates.Clear)
    : ∃ host', retireManagedWorktree worktree fates host = (.ok (), host') := by
  obtain ⟨acted, host', hrun⟩ := removeManagedWorktreeCheckout_of_clear host worktree h
  refine ⟨host', ?_⟩
  unfold retireManagedWorktree
  rw [bind_of_ok hrun, h.2.2.2.2.2]
  cases acted <;> rfl

theorem cleanupManagedWorktree_of_clear (host : Host) (worktree : ManagedWorktree)
    {fates : RemoveFates} (h : fates.Clear)
    : ∃ host', cleanupManagedWorktree worktree fates host = (.ok (), host') := by
  obtain ⟨acted, host', hrun⟩ := removeManagedWorktreeCheckout_of_clear host worktree h
  refine ⟨host', ?_⟩
  unfold cleanupManagedWorktree
  rw [bind_of_ok hrun, h.2.2.2.2.1, h.2.2.2.2.2]
  cases acted <;> rfl

theorem rollbackWorktree_of_clear (host : Host) (previous current : Option ManagedWorktree)
    (recreated : Bool) {fates : RemoveFates} (h : fates.Clear)
    : ∃ host', rollbackWorktree previous current recreated fates host = (.ok (), host') := by
  cases current with
  | none =>
    cases previous with
    | none => exact ⟨host, rfl⟩
    | some previous =>
    cases recreated with
    | false => exact ⟨host, rfl⟩
    | true => exact retireManagedWorktree_of_clear host previous h
  | some current =>
    cases previous with
    | none => exact cleanupManagedWorktree_of_clear host current h
    | some previous =>
    cases recreated with
    | true => exact retireManagedWorktree_of_clear host previous h
    | false =>
      by_cases hsame : current = previous
      . simp [rollbackWorktree, hsame]
      . simpa [rollbackWorktree, hsame] using cleanupManagedWorktree_of_clear host current h

theorem persist_of_ok {fates : TransitionFates} {previous : SessionRecord} {context : String}
    (h : fates.persist = .ok)
    : persistSessionRecordTransitionOrRestore fates saveLifecycleSession previous context host
        = (.ok (), host.store (lifecycleFields host.record host.row)) := by
  have hsave : saveLifecycleSession fates.persist host.record host
      = (.ok (), host.store (lifecycleFields host.record host.row)) := by
    simp [saveLifecycleSession, write, h]
  simp only [persistSessionRecordTransitionOrRestore, get_bind]
  rw [bind_of_ok (attempt_of_ok hsave)]
  rfl

theorem whenSome_retire_of_clear (host : Host) (managed : Option ManagedWorktree)
    {fates : RemoveFates} (message : String) (h : fates.Clear)
    : ∃ host',
        whenSome managed (fun worktree => context message (retireManagedWorktree worktree fates)) host
          = (.ok (), host') := by
  cases managed with
  | none => exact ⟨host, rfl⟩
  | some worktree =>
    obtain ⟨host', hrun⟩ := retireManagedWorktree_of_clear host worktree h
    exact ⟨host', context_of_ok hrun⟩

section ForceStop

variable {sha256 : String → List UInt8} {now : String} {fates : ForceStopFates}
  {locator : TargetLocator}

theorem forceStop_completes_iff (hplaced : Placed sha256 host locator)
    (hactive : host.record.state.isActive = true)
    (hfree : (Teardown.forceStop fates).Unhindered host)
    : Teardown.Completes (.forceStop fates) (forceStop sha256 now fates host)
        ↔ locator.removes (host.targets.contains locator) host.overlays = true := by
  obtain ⟨⟨checkpoint, hcheckpoint, hgate⟩, hbroker, hclose, hclear, hstopped⟩ := hfree
  unfold forceStop
  simp only [get_bind, hactive, ensure_true_bind, hcheckpoint, expect_some_bind]
  rw [bind_of_ok (context_of_ok (passesGate_eq_true hgate)), hbroker,
    bind_of_ok (context_of_ok step_ok), hplaced.target, whenSome_some, bind_bind,
    bind_of_ok (hplaced.backendLocator_eq rfl rfl), hclose]
  cases h : locator.removes (host.targets.contains locator) host.overlays with
  | false =>
    rw [bind_apply, (closePlan_eq hplaced.verified).trans (executeClose_of_not_removes h)]
    simp [Teardown.Completes]
  | true =>
  rw [bind_of_ok ((closePlan_eq hplaced.verified).trans (executeClose_of_removes h))]
  obtain ⟨host', hrun⟩ := whenSome_retire_of_clear (closed locator host)
    host.record.managedWorktree "retire managed raw-session worktree after force stop" hclear
  rw [bind_of_ok hrun]
  simp [setRecord, persist_of_ok hstopped, Teardown.Completes, store, lifecycleFields]

end ForceStop

section Destroy

variable {sha256 : String → List UInt8} {now : String} {fates : DestroyFates}
  {locator : TargetLocator}

def begun (now : String) (host : Host) : Host :=
  if host.record.state = .closing then
    let record := { host.record with state := .destroying, updatedAt := now, lastError := none }
    { host with record := record }.store (lifecycleFields record host.row)
  else host

theorem beginDestroying_of_ok (hpersist : fates.destroying.persist = .ok)
    : guarded (host.record.state = .closing) (beginDestroying now fates.destroying host.record) host
        = (.ok (), begun now host) := by
  unfold begun
  by_cases h : host.record.state = .closing
  . simp [h, beginDestroying, setRecord, persist_of_ok hpersist]
  . simp [h]

theorem begun_unchanged (now : String) (host : Host)
    : (begun now host).record.id = host.record.id ∧ (begun now host).record.target = host.record.target
        ∧ (begun now host).record.targetTemplateId = host.record.targetTemplateId
        ∧ (begun now host).config = host.config ∧ (begun now host).archives = host.archives := by
  unfold begun
  split <;> simp [store]

theorem destroy_completes (hplaced : Placed sha256 host locator)
    (hstate : host.record.state = .closing ∨ host.record.state = .destroying)
    (hfree : (Teardown.destroy fates).Unhindered host)
    : Teardown.Completes (.destroy fates) ((Teardown.destroy fates).run sha256 now host) := by
  obtain ⟨⟨checkpoint, hcheckpoint, hgate⟩, hdestroying, hbroker, hclose, hprobe, hclear, hstopped⟩ :=
    hfree
  obtain ⟨hid, htarget, htemplate, hconfig, harchives⟩ := begun_unchanged now host
  have hgate' : (begun now host).passesGate host.record.id checkpoint = true := by
    unfold passesGate
    rw [harchives]
    exact hgate
  have hopen : (decide (host.record.state = .closing)
      || decide (host.record.state = .destroying)) = true := by
    simpa using hstate
  unfold Teardown.run destroyAfterVerifiedCheckpoint
  simp only [get_bind, hcheckpoint, expect_some_bind, hopen, ensure_true_bind, decide_true]
  rw [bind_of_ok (beginDestroying_of_ok hdestroying)]
  simp only [get_bind]
  rw [bind_of_ok (passesGate_eq_true hgate'), hbroker, bind_of_ok (context_of_ok step_ok), htarget,
    hplaced.target, expect_some_bind]
  unfold tearDown
  rw [bind_bind, bind_of_ok (hplaced.backendLocator_eq htemplate hconfig), bind_bind, hid,
    hplaced.verified, ofExcept_ok_bind, bind_bind,
    bind_of_ok (executeCloseOrConfirmAbsence_of_runs hplaced.verified hclose hprobe)]
  obtain ⟨host', hrun⟩ := whenSome_retire_of_clear
    (closed locator (begun now host)) (begun now host).record.managedWorktree
    "retire managed raw-session worktree after verified close" hclear
  rw [bind_of_ok hrun]
  simp [setRecord, persist_of_ok hstopped, Teardown.Completes, store, lifecycleFields]

end Destroy

end Stop

section Rollback

variable {sha256 : String → List UInt8} {now : String} {previous : SessionRecord}
  {recreated : Bool} {error : String} {fates : RollbackFates} {host : Host} {locator : TargetLocator}

theorem saveRolledBack_of_ok {current record : SessionRecord} (hrebind : fates.rebind = .ok)
    (hsave : fates.save = .ok)
    : saveRolledBack current fates record host
        = (.ok (), { host with record := record, row := record }) := by
  unfold saveRolledBack
  rw [hrebind, hsave]
  cases decide (record.bundleId ≠ current.bundleId) <;> rfl

theorem rollback_completes_iff (hplaced : Placed sha256 host locator)
    (hfree : (Teardown.rollback previous recreated error fates).Unhindered host)
    : Teardown.Completes (.rollback previous recreated error fates)
          (Teardown.run sha256 now (.rollback previous recreated error fates) host)
        ↔ locator.removes (host.targets.contains locator) host.overlays = true := by
  obtain ⟨hclose, hclear, hrebind, hsave⟩ := hfree
  have hcleanup : (do
      backendLocator locator host.record
      closePlan sha256 host.record.id locator .runs : HostM Unit) host
        = executeClose locator .runs host := by
    rw [bind_of_ok (hplaced.backendLocator_eq rfl rfl), closePlan_eq hplaced.verified]
  obtain ⟨host', hworktree⟩ := rollbackWorktree_of_clear (closed locator host)
    previous.managedWorktree host.record.managedWorktree recreated hclear
  unfold Teardown.run rollbackFailedResume
  simp only [get_bind, bind_bind, hplaced.target, whenSome_some, hclose]
  cases h : locator.removes (host.targets.contains locator) host.overlays with
  | true =>
    rw [executeClose_of_removes h] at hcleanup
    rw [bind_of_ok (attempt_of_ok hcleanup)]
    simp only [bind_bind]
    rw [bind_of_ok (attempt_of_ok hworktree)]
    simp only [bind_bind]
    rw [bind_of_ok (saveRolledBack_of_ok hrebind hsave)]
    simp only [iff_true]
    exact ⟨rfl, rfl, rfl⟩
  | false =>
    have hfailure : cleanupError [.error s!"{locator.closePurpose} failed", .ok ()]
        = some s!"{locator.closePurpose} failed" := by
      apply if_neg
      show _ ++ " failed" ≠ ""
      simp
    rw [executeClose_of_not_removes h] at hcleanup
    rw [bind_of_ok (attempt_of_error hcleanup)]
    simp only [bind_bind]
    rw [bind_of_ok (attempt_of_ok hworktree)]
    simp only [bind_bind]
    rw [bind_of_ok (saveRolledBack_of_ok hrebind hsave)]
    rw [hfailure]
    simp [Teardown.Completes, applyFailedResumeRollback]

end Rollback

theorem executeClose_ok_iff {locator : TargetLocator} {host : Host}
    : (executeClose locator .runs host).1 = .ok ()
        ↔ locator.removes (host.targets.contains locator) host.overlays = true := by
  cases h : locator.removes (host.targets.contains locator) host.overlays with
  | true => simp [executeClose_of_removes h]
  | false => simp [executeClose_of_not_removes h]

namespace Teardown

/--
With its target gone, an operation that nothing else hinders completes exactly if it asks whether the
target is there, or if the removal succeeds without one.
-/
theorem completes_without_target_iff (sha256 : String → List UInt8) (now : String) (op : Teardown)
    (host : Host) (locator : TargetLocator) (hplaced : Placed sha256 host locator)
    (hallowed : op.Allowed host.record.state) (hfree : op.Unhindered host)
    (hgone : locator ∉ host.targets)
    : op.Completes (op.run sha256 now host)
        ↔ op.confirmsAbsence = true ∨ Idempotent host.overlays locator := by
  have habsent : host.targets.contains locator = false := by simpa using hgone
  rw [← removes_absent_iff hplaced.verified]
  cases op with
  | destroy fates =>
    simp only [confirmsAbsence, true_or, iff_true]
    apply destroy_completes hplaced hallowed hfree
  | forceStop fates =>
    simp only [confirmsAbsence, Bool.false_eq_true, false_or, run]
    rw [forceStop_completes_iff hplaced hallowed hfree, habsent]
  | leftover close =>
    have hclose : close = .runs := hfree
    have herror : host.record.state = .error := hallowed
    simp only [confirmsAbsence, Bool.false_eq_true, false_or, run, get_bind, Completes, cleanUpLeftover,
      herror, decide_true, guarded_true, hplaced.target, whenSome_some]
    rw [bind_of_ok (hplaced.backendLocator_eq rfl rfl), hclose, context_ok_iff,
      closePlan_eq hplaced.verified, executeClose_ok_iff, habsent]
  | rollback previous recreated error fates =>
    simp only [confirmsAbsence, Bool.false_eq_true, false_or]
    rw [rollback_completes_iff hplaced hfree, habsent]

section Apple

def appleSha256 (_ : String) : List UInt8 := [0x3e, 0x3f, 0xf9]

def appleLocator : TargetLocator := .appleContainer "mj-session1-3e3ff9"

def appleCheckpoint : CheckpointMetadata where
  archivePath := ["/", "archives", "session1.hel.zip"]
  sha256 := "aa"
  createdAt := "monday"
  eventFrontier := 7

def appleSession : SessionRecord where
  id := "session1"
  harnessKind := .claude
  lastProfile := "work"
  bundleId := "app"
  projectDirectory := none
  managedWorktree := none
  targetTemplateId := "mac"
  state := .running
  target := some appleLocator
  updatedAt := "monday"
  lastError := none
  lastCheckpointError := none
  checkpoint := some appleCheckpoint

def appleHost : Host where
  record := appleSession
  row := appleSession
  config := { targets := .ofList [("mac", .appleContainer)] }
  targets := [appleLocator]
  overlays := []
  checkouts := []
  archives := fun path =>
    if path = appleCheckpoint.archivePath then
      some { sha256 := "aa", sessionId := "session1", eventFrontier := 7 }
    else none

def clearRemoval : RemoveFates where
  source := .present
  probe := .ok
  remove := .ok
  prune := .ok
  branch := .ok
  finish := .ok

def undisturbedStop : ForceStopFates where
  broker := .ok
  close := .runs
  worktree := clearRemoval
  stopped := { persist := .ok, restore := .ok }

def interruptedStop : ForceStopFates :=
  { undisturbedStop with stopped := { persist := .crash, restore := .ok } }

def undisturbedDestroy : DestroyFates where
  destroying := { persist := .ok, restore := .ok }
  broker := .ok
  close := .runs
  probe := .ok
  worktree := clearRemoval
  stopped := { persist := .ok, restore := .ok }

def undisturbedRollback : RollbackFates where
  close := .runs
  worktree := clearRemoval
  rebind := .ok
  save := .ok

def appleLeft : Host :=
  (Host.forceStop appleSha256 "tuesday" interruptedStop appleHost).2.load

def failedResume : Teardown :=
  .rollback { appleSession with state := .stopped, target := none } false "the agent did not start"
    undisturbedRollback

def appleRolledBack : Host :=
  (failedResume.run appleSha256 "wednesday" appleLeft).2.load

theorem destroy_completes_without_container
    : (Teardown.destroy undisturbedDestroy).Completes
        ((Teardown.destroy undisturbedDestroy).run appleSha256 "wednesday"
          { appleLeft with record := { appleSession with state := .destroying } }) := by
  apply (completes_without_target_iff appleSha256 "wednesday" (.destroy undisturbedDestroy) _
    appleLocator ?_ ?_ ?_ ?_).mpr
  . exact Or.inl rfl
  . exact ⟨rfl, ⟨.appleContainer, rfl, rfl⟩, rfl, by decide⟩
  . exact Or.inr rfl
  . exact ⟨⟨appleCheckpoint, rfl, rfl⟩, rfl, rfl, rfl, rfl, ⟨Or.inl rfl, rfl, rfl, rfl, rfl, rfl⟩, rfl⟩
  . simp [appleLeft]
    decide

theorem forceStop_refused_without_container
    : appleLeft.row = appleSession ∧ (Teardown.forceStop undisturbedStop).Allowed appleLeft.record.state
        ∧ (Teardown.forceStop undisturbedStop).Unhindered appleLeft
        ∧ (Teardown.run appleSha256 "wednesday" (.forceStop undisturbedStop) appleLeft).1
            = .error "remove Apple session container and Git cache snapshot failed"
        ∧ (Teardown.run appleSha256 "wednesday" (.forceStop undisturbedStop) appleLeft).2.row
            = appleSession
        ∧ appleRolledBack.row.state = .error ∧ appleRolledBack.row.target = some appleLocator
        ∧ (Teardown.run appleSha256 "thursday" (.leftover .runs) appleRolledBack).1
            = .error "clean up target from failed resume: remove Apple session container and Git cache snapshot failed" := by
  refine ⟨rfl, rfl, ?_, by decide, by decide, by decide, by decide, by decide⟩
  exact ⟨⟨appleCheckpoint, rfl, rfl⟩, rfl, rfl, ⟨Or.inl rfl, rfl, rfl, rfl, rfl, rfl⟩, rfl⟩

end Apple

end Teardown

end Host

end Hel
