import Hel.Worker.Impl.Relay

/-!
This module contains the claims of the relay, which hand commands to the agent and to the shell, and
the recording of what became of a command.
-/

namespace Hel

open Program (fail get modify ofExcept)

structure ClaimedSteeringPrompt where
  queuedCommandId : String
  prompt : List ContentBlock
  deriving DecidableEq

structure ClaimedRelayCommand where
  commandId : String
  acceptedOrdinal : Nat
  command : RelayCommand
  hiddenPromptContext : Option String
  steeringPrompt : Option ClaimedSteeringPrompt
  deriving DecidableEq

variable (s : RelaySnapshot)

def steeringPrompt : RelayCommand → Option ClaimedSteeringPrompt
  | .cancel =>
    match s.queuedPrompts.head? with
    | some { commandId := commandId, payload := .prompt prompt, .. } =>
      some { queuedCommandId := commandId, prompt := prompt }
    | _ => none
  | _ => none

def attachPromptContext (commandId : String) (context : PendingPromptContext) :
    PendingPromptContext :=
  if context.attachedCommandId = none then
    { context with attachedCommandId := some commandId }
  else
    context

def attachUserShellContext (commandId : String) (acceptedOrdinal : Nat)
    (context : PendingUserShellContext) : PendingUserShellContext :=
  if context.acceptedOrdinal < acceptedOrdinal ∧ context.attachedCommandId = none then
    { context with attachedCommandId := some commandId }
  else
    context

def attachContexts (commandId : String) (acceptedOrdinal : Nat) : RelaySnapshot :=
  { s with
    pendingPromptContext := s.pendingPromptContext.map (attachPromptContext commandId)
    pendingUserShellContexts :=
      s.pendingUserShellContexts.map (attachUserShellContext commandId acceptedOrdinal) }

def attachedContexts (commandId : String) (acceptedOrdinal : Nat) : Option String :=
  let texts :=
    (s.pendingPromptContext.toList.filter (·.attachedCommandId = some commandId)).map (·.text)
      ++ (s.pendingUserShellContexts.filter (fun context =>
        context.acceptedOrdinal < acceptedOrdinal
          && context.attachedCommandId = some commandId)).map (·.text)
  if texts.isEmpty then none else some ("\n\n".intercalate texts)

def markInFlight (commandId : String) : RelaySnapshot :=
  s.setDispatchState commandId .inFlight

def claimCommand (commandId : String) (acceptedOrdinal : Nat)
    (command : RelayCommand) : RelaySnapshot × ClaimedRelayCommand :=
  let steering := steeringPrompt s command
  let s := markInFlight s commandId
  let s := if command.isPrompt then attachContexts s commandId acceptedOrdinal else s
  (s,
    { commandId := commandId
      acceptedOrdinal := acceptedOrdinal
      command := command
      hiddenPromptContext :=
        if command.isPrompt then attachedContexts s commandId acceptedOrdinal else none
      steeringPrompt := steering })

def claimCommands : RelaySnapshot → List (Nat × String) → RelaySnapshot × List ClaimedRelayCommand
  | s, [] => (s, [])
  | s, (acceptedOrdinal, commandId) :: rest =>
    match s.dispatches.get? commandId with
    | none => claimCommands s rest
    | some dispatch =>
      let (s, claimed) := claimCommand s commandId acceptedOrdinal dispatch.command
      let (s, others) := claimCommands s rest
      (s, claimed :: others)

def startQueuedControls (codec : RelayCodec) : List String → RelayM Unit
  | [] => pure ()
  | commandId :: rest => do
    let _ ← startQueued codec commandId
    startQueuedControls codec rest

def claimable : List (Nat × String) :=
  acceptedWhere s (fun commandId dispatch =>
    dispatch.state = .pending &&
      match s.checkpointBarrier with
      | some barrierId => commandId = barrierId
      | none => true)

variable (codec : RelayCodec)

def admitControls (maximum : Nat) : RelayM Unit := do
  let w ← get
  let s := w.relay.snapshot
  match s.checkpointBarrier with
  | some _ => pure ()
  | none =>
    match nextQueuedCheckpoint s with
    | some (barrierOrdinal, barrierId) =>
      let earlierControls := queuedControlsBefore s barrierOrdinal
      if !earlierControls.isEmpty then
        startQueuedControls codec (earlierControls.take maximum)
      else if !effectfulCommandInProgress s then do
        let _ ← startQueued codec barrierId
        pure ()
      else
        pure ()
    | none => startQueuedControls codec ((queuedControlsBefore s U64_MAX).take maximum)

-- A claim is not in the journal, so it is durable only with the snapshot.
def commitClaims (next : RelaySnapshot) (claimed : List ClaimedRelayCommand) : RelayM Unit :=
  if !claimed.isEmpty then commitSnapshot codec next else pure ()

def claimPendingCommandsUpTo (acpSessionConfigured : Bool) (maximum : Nat) :
    RelayM (List ClaimedRelayCommand) := do
  if !acpSessionConfigured || maximum = 0 then
    pure []
  else
    let _ ← promoteNextQueuedCommand codec
    admitControls codec maximum
    let w ← get
    let s := w.relay.snapshot
    let selected := ((claimable s).insertionSort (fun a b => a.1 ≤ b.1)).take maximum
    let (next, claimed) := claimCommands s selected
    commitClaims codec next claimed
    pure claimed

def cancelledShells : List String :=
  s.dispatches.values.filterMap (fun dispatch =>
    match dispatch.state, dispatch.command with
    | .queued, .cancelUserShell shellCommandId => some shellCommandId
    | _, _ => none)

def shellSelection (maximumRuns : Nat) : List (Nat × String) :=
  let barrierOrdinal := ((nextQueuedCheckpoint s).map (·.1)).getD U64_MAX
  let cancels :=
    acceptedWhere s (fun _ dispatch =>
      dispatch.state = .queued && dispatch.command.kind = .cancelUserShell)
  let runs :=
    (acceptedWhere s (fun commandId dispatch =>
      dispatch.state = .queued && dispatch.command.kind = .runUserShell
        && commandId ∉ cancelledShells s)).filter (fun entry => entry.1 < barrierOrdinal)
  sortAccepted (sortAccepted cancels ++ (sortAccepted runs).take maximumRuns)

def claimPendingUserShellCommandsUpTo (maximumRuns : Nat) : RelayM (List ClaimedRelayCommand) := do
  let w ← get
  match w.relay.snapshot.checkpointBarrier with
  | some _ => pure []
  | none =>
    let selected := shellSelection w.relay.snapshot maximumRuns
    startQueuedControls codec (selected.map (·.2))
    let w ← get
    let (next, claimed) := claimCommands w.relay.snapshot selected
    commitClaims codec next claimed
    pure claimed

def recordObservation (observation : RelayObservation) : RelayM Nat :=
  appendRelayEvent codec none observation

def recordThenPromote (commandId : String) (observation : RelayObservation) : RelayM Nat := do
  let ordinal ← appendRelayEvent codec (some commandId) observation
  let _ ← promoteNextQueuedCommand codec
  pure ordinal

def recordCommandCompleted (commandId : String) (outcome : RelayCommandOutcome) : RelayM Nat := do
  let w ← get
  match w.relay.snapshot.dispatches.get? commandId with
  | none => fail s!"unknown relay command {commandId}"
  | some dispatch =>
    if dispatch.state ≠ .inFlight then
      fail s!"relay command {commandId} is not in flight"
    else if dispatch.command.isBeginCheckpoint then
      fail "checkpoint barriers complete through record_checkpoint_ready"
    else
      recordThenPromote codec commandId (.commandCompleted commandId outcome)

def recordCommandRejected (commandId message : String) : RelayM Nat := do
  let w ← get
  match w.relay.snapshot.dispatches.get? commandId with
  | none => fail s!"unknown relay command {commandId}"
  | some dispatch =>
    recordThenPromote codec commandId (.commandRejected commandId dispatch.command.kind message)

def recordCommandInterrupted (commandId message : String) : RelayM Nat := do
  let w ← get
  match w.relay.snapshot.dispatches.get? commandId with
  | none => fail s!"unknown relay command {commandId}"
  | some dispatch =>
    recordThenPromote codec commandId (.commandInterrupted commandId dispatch.command.kind message)

def recordCheckpointReady (commandId : String) : RelayM Nat := do
  let w ← get
  let s := w.relay.snapshot
  match s.dispatches.get? commandId with
  | none => fail s!"unknown relay command {commandId}"
  | some dispatch =>
    if dispatch.state ≠ .inFlight then
      fail s!"relay command {commandId} is not in flight"
    else if s.checkpointBarrier ≠ some commandId then
      fail s!"checkpoint barrier {commandId} is not active"
    else if s.checkpointReadyThrough.isSome then
      fail s!"checkpoint barrier {commandId} is already ready"
    else if !dispatch.command.isBeginCheckpoint then
      fail s!"command {commandId} is not a checkpoint barrier"
    else if s.latestOrdinal ≥ U64_MAX then
      fail "relay event ordinal exhausted"
    else
      appendRelayEvent codec (some commandId) (.checkpointReady commandId (s.latestOrdinal + 1))

def cancelCheckpointBarrierOnDisconnect (commandId : String) : RelayM (Option Nat) := do
  let w ← get
  match w.relay.snapshot.dispatches.get? commandId with
  | none => pure none
  | some dispatch =>
    if !dispatch.command.isBeginCheckpoint || dispatch.state.isTerminal then
      pure none
    else do
      let ordinal ←
        recordThenPromote codec commandId
          (.commandInterrupted commandId .beginCheckpoint
            "checkpoint barrier cancelled because its controller disconnected")
      pure (some ordinal)

def advanceAcknowledgement (throughOrdinal : Nat) (throughDigest : String) : RelayM Unit := do
  let w ← get
  if throughOrdinal > w.relay.snapshot.acknowledgedThrough then
    -- The acknowledgement becomes durable before any journal is collected.
    commitSnapshot codec
      { w.relay.snapshot with
        acknowledgedThrough := throughOrdinal
        acknowledgedDigest := throughDigest }

def collectAcknowledged (throughOrdinal : Nat) : RelayM Unit := do
  let w ← get
  if throughOrdinal = w.relay.snapshot.acknowledgedThrough then
    garbageCollectRelayHistory codec

def acknowledge (throughOrdinal : Nat) (throughDigest : String) :
    RelayM (Except RelayProtocolError RelayResponsePayload) := do
  let w ← get
  let plan := replayPlan w.relay
  match plan.validateCursor codec (.of w.disk.journal.files) throughOrdinal throughDigest with
  | .error message =>
    pure (.error
      { code := .desynchronized
        message := message
        retryable := false
        detail := some (plan.desynchronizedDetail throughOrdinal throughDigest) })
  | .ok () => do
    advanceAcknowledgement codec throughOrdinal throughDigest
    collectAcknowledged codec throughOrdinal
    let w ← get
    pure (.ok
      (.acknowledged w.relay.snapshot.acknowledgedThrough w.relay.snapshot.acknowledgedDigest))

def installPromptContext (text : String) : RelayM Unit := do
  let w ← get
  let s := w.relay.snapshot
  if Text.isBlank text then
    fail "pending prompt context is empty"
  else if s.activePrompt.isSome
      || (s.pendingPromptContext.bind (·.attachedCommandId)).isSome then
    fail "cannot replace prompt context while its prompt is active"
  else
    let context : PendingPromptContext :=
      match s.pendingPromptContext with
      | some context =>
        if context.text ≠ text then
          { context with text := context.text ++ "\n\n" ++ text }
        else
          context
      | none => { text := text, attachedCommandId := none }
    let next := { s with pendingPromptContext := some context }
    ofExcept
      (ensureByteBudget (codec.snapshotLen next) RELAY_SNAPSHOT_BYTE_BUDGET
        "relay snapshot with pending prompt context")
    commitSnapshot codec next

def rememberReplayCursor (relay : DurableRelay) (throughOrdinal : Nat) (throughDigest : String) :
    DurableRelay :=
  if relay.replayCursors.getLast? = some (throughOrdinal, throughDigest) then
    relay
  else
    { relay with
      replayCursors :=
        pushBounded RELAY_REPLAY_CURSOR_CAPACITY
          (relay.replayCursors.filter (·.1 ≠ throughOrdinal)) (throughOrdinal, throughDigest) }

def rememberAttached (response : Except RelayProtocolError RelayResponsePayload) : RelayM Unit :=
  match response with
  | .ok (.attached _ _ throughOrdinal throughDigest) =>
    modifyRelay (rememberReplayCursor · throughOrdinal throughDigest)
  | _ => pure ()

def attachRelay (afterOrdinal : Nat) (afterDigest : String) :
    RelayM (Except RelayProtocolError RelayResponsePayload) := do
  let w ← get
  let response ←
    ofExcept
      ((replayPlan w.relay).attach codec (.of w.disk.journal.files) afterOrdinal afterDigest
        w.relay.snapshot.operationalState)
  rememberAttached response
  pure response

end Hel
