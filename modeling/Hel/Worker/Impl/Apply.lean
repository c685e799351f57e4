import Hel.Worker.Impl.Snapshot

/-!
This module contains the relay state machine.
-/

namespace Hel

def RelayCommandOutcome.debug : RelayCommandOutcome → String
  | .prompt stopReason => "Prompt \x7b stop_reason: " ++ Text.debugString stopReason ++ " \x7d"
  | .userShell result =>
    "UserShell \x7b result: UserShellResult \x7b command: " ++ Text.debugString result.command
      ++ ", .. \x7d \x7d"
  | .userShellCancelled => "UserShellCancelled"
  | .configured => "Configured"
  | .sessionModeSet => "SessionModeSet"
  | .cancelled => "Cancelled"
  | .steered queuedCommandId =>
    "Steered \x7b queued_command_id: " ++ Text.debugString queuedCommandId ++ " \x7d"
  | .closed => "Closed"
  | .queueChanged removedCommandIds =>
    "QueueChanged \x7b removed_command_ids: " ++ Text.debugStrings removedCommandIds ++ " \x7d"
  | .checkpointCompleted => "CheckpointCompleted"
  | .checkpointReleased => "CheckpointReleased"
  | .recoveryFloorAdvanced => "RecoveryFloorAdvanced"
  | .noticeRecorded => "NoticeRecorded"

def observationChangesState : RelayObservation → Bool
  | .agentInitialized .. | .sessionOpened .. | .sessionConfigured .. | .sessionModesConfigured ..
  | .commandQueued .. | .commandStarted .. | .commandCompleted .. | .commandRejected ..
  | .commandInterrupted .. | .configurationUpdated .. | .checkpointReady .. | .closing
  | .closed => true
  | .sessionUpdate (.availableCommandsUpdate _) | .sessionUpdate (.configOptionUpdate _)
  | .sessionUpdate (.currentModeUpdate _) => true
  | .sessionUpdate _ => false
  | .permissionAutoApproved .. | .elicitationRequested .. | .elicitationResolved ..
  | .elicitationsCleared | .warning .. | .sessionRestarted | .userShellOutput ..
  | .terminalOutput .. | .notice .. => false

namespace RelaySnapshot

variable (s : RelaySnapshot)

def queueCommand (ordinal : Nat) (commandId : String) (command : RelayCommand)
    (createdAtMs : Int) : RelaySnapshot :=
  { s with
    handledCommands := s.handledCommands.insert commandId
      { command := command, acceptedOrdinal := ordinal, terminalOrdinal := none }
    dispatches := s.dispatches.insert commandId { command := command, state := .queued }
    queuedPrompts :=
      match StoredQueuedRelayPayload.ofCommand command with
      | some payload =>
        s.queuedPrompts ++
          [{ commandId := commandId, payload := payload, createdAtMs := createdAtMs }]
      | none => s.queuedPrompts
    activeUserShells :=
      match command with
      | .runUserShell shell =>
        s.activeUserShells.insert commandId
          { commandId := commandId
            command := shell
            createdAtMs := createdAtMs
            startedAtMs := none }
      | _ => s.activeUserShells
    execution := if command.isClose then .closing else s.execution }

def startPrompt (commandId : String) (startedAtMs : Int) : Except String RelaySnapshot :=
  match s.queuedPrompts.find? (·.commandId = commandId) with
  | none => .error s!"started prompt {commandId} was not queued"
  | some queued =>
    match queued.payload with
    | .setConfig _ _ => .error s!"queued command {commandId} is not a prompt"
    | .prompt prompt =>
      .ok
        { s with
          queuedPrompts := s.queuedPrompts.eraseP (·.commandId = commandId)
          execution := .running
          activePrompt := some
            { commandId := queued.commandId
              prompt := prompt
              createdAtMs := queued.createdAtMs
              startedAtMs := startedAtMs } }

def startSetConfig (commandId : String) : Except String RelaySnapshot :=
  match s.queuedPrompts.find? (·.commandId = commandId) with
  | none => .error s!"started configuration change {commandId} was not queued"
  | some _ => .ok { s with queuedPrompts := s.queuedPrompts.eraseP (·.commandId = commandId) }

def startUserShell (commandId : String) (startedAtMs : Int) : Except String RelaySnapshot :=
  match s.activeUserShells.get? commandId with
  | none => .error s!"started unknown user shell {commandId}"
  | some _ =>
    .ok
      { s with
        activeUserShells := s.activeUserShells.modify commandId
          ({ · with startedAtMs := some startedAtMs }) }

def startBarrier (commandId : String) : Except String RelaySnapshot :=
  match s.checkpointBarrier with
  | some _ => .error "checkpoint barrier started while another barrier was active"
  | none =>
    .ok
      { s with
        checkpointBarrier := some commandId
        checkpointReadyThrough := none
        checkpointReadyDigest := none }

def startCommand (commandId : String) (startedAtMs : Int) : Except String RelaySnapshot :=
  match s.dispatches.get? commandId with
  | none => .error s!"started unknown relay command {commandId}"
  | some dispatch =>
    let s := s.setDispatchState commandId .pending
    match dispatch.command with
    | .prompt _ => s.startPrompt commandId startedAtMs
    | .setConfig _ _ => s.startSetConfig commandId
    | .close _ _ => .ok { s with execution := .closing }
    | .runUserShell _ => s.startUserShell commandId startedAtMs
    | .beginCheckpoint _ => s.startBarrier commandId
    | _ => .ok s

def terminalizeRemovedPrompts (s : RelaySnapshot) (ordinal : Nat) :
    (removedCommandIds : List String) → Except String RelaySnapshot
  | [] => .ok s
  | commandId :: rest =>
    match s.dispatches.get? commandId with
    | none => .error s!"removed unknown queued command {commandId}"
    | some dispatch =>
      if !dispatch.command.isQueueEntry || dispatch.state ≠ .queued then
        .error s!"removed command {commandId} is not a queued command"
      else if !s.handledCommands.contains commandId then
        .error s!"removed command {commandId} is not in the ledger"
      else
        (s.terminalize commandId .rejected ordinal).terminalizeRemovedPrompts ordinal rest

def removePrompts (ordinal : Nat) (removedCommandIds : List String) : Except String RelaySnapshot :=
  match s.terminalizeRemovedPrompts ordinal removedCommandIds with
  | .error e => .error e
  | .ok s => .ok (s.removeQueued removedCommandIds)

def completePrompt (commandId : String) : RelaySnapshot :=
  let s :=
    { s with
      activePrompt := if s.activePromptId = some commandId then none else s.activePrompt
      execution := if s.execution = RelayExecutionState.running then .idle else s.execution }
  s.dropContexts commandId

def completeUserShell (commandId : String) (result : UserShellResult) :
    Except String RelaySnapshot :=
  match s.handledCommands.get? commandId with
  | none => .error "completed user shell is not in the ledger"
  | some handled =>
    let s := { s with activeUserShells := s.activeUserShells.remove commandId }
    .ok (s.pushUserShellContext commandId handled.acceptedOrdinal result)

def completeRemoval (ordinal : Nat) (queuedCommandId : String)
    (removedCommandIds : List String) : Except String RelaySnapshot :=
  let expected :=
    if s.queuedPrompts.any (·.commandId = queuedCommandId) then some [queuedCommandId] else none
  if expected ≠ some removedCommandIds then
    .error "removed queue outcome does not match the durable queue"
  else
    s.removePrompts ordinal removedCommandIds

def completeClear (ordinal : Nat) (removedCommandIds : List String) : Except String RelaySnapshot :=
  if s.queuedPrompts.map (·.commandId) ≠ removedCommandIds then
    .error "cleared queue outcome does not match the durable queue"
  else
    s.removePrompts ordinal removedCommandIds

def completeSteering (ordinal : Nat) (queuedCommandId : String) : Except String RelaySnapshot :=
  match s.queuedPrompts with
  | [] => .error "steered prompt is no longer queued"
  | queued :: rest =>
    if queued.commandId ≠ queuedCommandId || !queued.payload.isPrompt then
      .error "steered prompt is not the queued prompt head"
    else
      match s.dispatches.get? queuedCommandId with
      | none => .error "steered unknown queued prompt"
      | some target =>
        if target.state ≠ .queued || !target.command.isPrompt then
          .error "steered target is not a queued prompt"
        else if !s.handledCommands.contains queuedCommandId then
          .error "steered prompt is not in the ledger"
        else
          let s := { s.terminalize queuedCommandId .completed ordinal with queuedPrompts := rest }
          .ok (s.dropContexts queuedCommandId)

def completeBarrier (ordinal : Nat) (barrierCommandId : String) : Except String RelaySnapshot :=
  if s.checkpointBarrier ≠ some barrierCommandId then
    .error "checkpoint completion does not match the active barrier"
  else
    match s.checkpointReadyThrough with
    | none => .error "checkpoint barrier was not ready"
    | some readyThrough =>
      match s.checkpointReadyDigest with
      | none => .error "checkpoint barrier ready digest is missing"
      | some readyDigest =>
        let s :=
          { s.clearBarrier with
            recoveryFloorOrdinal := readyThrough
            recoveryFloorDigest := readyDigest }
        .ok (s.terminalize barrierCommandId .completed ordinal)

def releaseBarrier (ordinal : Nat) (barrierCommandId : String) : Except String RelaySnapshot :=
  if s.checkpointBarrier ≠ some barrierCommandId then
    .error "checkpoint release does not match the active barrier"
  else
    match s.checkpointReadyThrough with
    | none => .error "checkpoint barrier was not ready"
    -- The recovery floor stays where the last installed archive left it.
    | some _ => .ok (s.clearBarrier.terminalize barrierCommandId .completed ordinal)

def advanceFloor (through : RelayCursor) : Except String RelaySnapshot :=
  if through.ordinal < s.recoveryFloorOrdinal then
    .error "recovery floor cannot move back"
  else
    .ok
      { s with
        recoveryFloorOrdinal := through.ordinal
        recoveryFloorDigest := through.digest }

def completeOutcome (ordinal : Nat) (commandId : String) :
    (command : RelayCommand) → (outcome : RelayCommandOutcome) → Except String RelaySnapshot
  | .prompt _, .prompt _ => .ok (s.completePrompt commandId)
  | .runUserShell _, .userShell result => s.completeUserShell commandId result
  | .cancelUserShell _, .userShellCancelled => .ok s
  | .removeQueuedPrompt queuedCommandId, .queueChanged removedCommandIds =>
    s.completeRemoval ordinal queuedCommandId removedCommandIds
  | .clearQueuedPrompts, .queueChanged removedCommandIds =>
    s.completeClear ordinal removedCommandIds
  | .setConfig key value, .configured => .ok { s with config := s.config.insert key value }
  | .setSessionMode modeId, .sessionModeSet =>
    .ok { s with config := s.config.insert "mode" modeId }
  | .cancel, .cancelled => .ok s
  | .cancel, .steered queuedCommandId => s.completeSteering ordinal queuedCommandId
  | .close _ _, .closed => .ok { s with execution := .closed, activePrompt := none }
  | .completeCheckpoint barrierCommandId, .checkpointCompleted =>
    s.completeBarrier ordinal barrierCommandId
  | .releaseCheckpoint barrierCommandId, .checkpointReleased =>
    s.releaseBarrier ordinal barrierCommandId
  | .advanceRecoveryFloor through, .recoveryFloorAdvanced => s.advanceFloor through
  | .recordNotice _, .noticeRecorded => .ok s
  | .beginCheckpoint _, _ => .error "checkpoint barriers complete through checkpoint-ready"
  | command, outcome =>
    .error
      ("relay command " ++ command.kind.debug ++ " has incompatible completion outcome "
        ++ outcome.debug)

def completeCommand (ordinal : Nat) (commandId : String)
    (outcome : RelayCommandOutcome) : Except String RelaySnapshot :=
  match s.dispatches.get? commandId with
  | none => .error s!"completed unknown relay command {commandId}"
  | some dispatch =>
    if !s.handledCommands.contains commandId then
      .error s!"completed command {commandId} is not in the ledger"
    else
      (s.terminalize commandId .completed ordinal).completeOutcome ordinal commandId
        dispatch.command outcome

def terminatedShell (state : RelayDispatchState) (command message : String) : UserShellResult where
  command := command
  stdout := ""
  stderr := ""
  stdoutTruncated := false
  stderrTruncated := false
  exitCode := none
  signal := none
  durationMs := 0
  status := if state = .rejected then .failed else .interrupted
  error := some message

def releaseTerminated (commandId : String) (command : RelayCommand) : RelaySnapshot :=
  let s :=
    if s.activePromptId = some commandId then
      { s with activePrompt := none, execution := .idle }
    else
      s
  let s := s.detachContexts commandId
  let s :=
    if command.isBeginCheckpoint ∧ s.checkpointBarrier = some commandId then s.clearBarrier else s
  if command.isClose ∧ s.execution = .closing then { s with execution := .idle } else s

def terminateCommand (ordinal : Nat) (state : RelayDispatchState)
    (commandId : String) (observed : RelayCommandKind) (message : String) :
    Except String RelaySnapshot :=
  match s.dispatches.get? commandId with
  | none => .error s!"terminated unknown relay command {commandId}"
  | some dispatch =>
    if dispatch.command.kind ≠ observed then
      .error s!"terminated command {commandId} has the wrong command identity"
    else
      match s.handledCommands.get? commandId with
      | none => .error s!"terminated command {commandId} is not in the ledger"
      | some handled =>
        let s := (s.terminalize commandId state ordinal).removeQueued [commandId]
        let s := { s with activeUserShells := s.activeUserShells.remove commandId }
        let s :=
          match dispatch.command with
          | .runUserShell command =>
            s.pushUserShellContext commandId handled.acceptedOrdinal
              (terminatedShell state command message)
          | _ => s
        .ok (s.releaseTerminated commandId dispatch.command)

def readyBarrier (ordinal : Nat) (digest : String) (commandId : String)
    (through : Nat) : Except String RelaySnapshot :=
  match s.dispatches.get? commandId with
  | none => .error s!"checkpoint ready for unknown command {commandId}"
  | some dispatch =>
    if !dispatch.command.isBeginCheckpoint then
      .error s!"checkpoint ready for non-barrier command {commandId}"
    else if s.checkpointBarrier ≠ some commandId then
      .error "checkpoint ready does not match the active barrier"
    else if through ≠ ordinal then
      .error "checkpoint ready frontier does not match its event ordinal"
    else
      .ok
        { s with
          checkpointReadyThrough := some through
          checkpointReadyDigest := some digest }

def applySessionUpdate : SessionUpdate → RelaySnapshot
  | .availableCommandsUpdate availableCommands =>
    { s with availableCommands := availableCommands }
  | .configOptionUpdate configOptions => { s with configOptions := configOptions }
  | .currentModeUpdate currentModeId =>
    { s with
      modes := s.modes.map ({ · with currentModeId := currentModeId })
      config := s.config.insert "mode" currentModeId }
  | _ => s

def applyObservation (ordinal : Nat) (digest : String) :
    RelayObservation → Except String RelaySnapshot
  | .agentInitialized _ capabilities agentInfo =>
    .ok { s with agentCapabilities := some capabilities, agentInfo := agentInfo }
  | .sessionOpened nativeSessionId _ => .ok { s with nativeSessionId := some nativeSessionId }
  | .sessionConfigured configOptions => .ok { s with configOptions := configOptions }
  | .sessionModesConfigured modes => .ok { s with modes := modes }
  | .commandQueued commandId command createdAtMs =>
    .ok (s.queueCommand ordinal commandId command createdAtMs)
  | .commandStarted commandId startedAtMs => s.startCommand commandId startedAtMs
  | .commandCompleted commandId outcome => s.completeCommand ordinal commandId outcome
  | .commandRejected commandId command message =>
    s.terminateCommand ordinal .rejected commandId command message
  | .commandInterrupted commandId command message =>
    s.terminateCommand ordinal .interrupted commandId command message
  | .configurationUpdated key value => .ok { s with config := s.config.insert key value }
  | .checkpointReady commandId through => s.readyBarrier ordinal digest commandId through
  | .closing => .ok { s with execution := .closing }
  | .closed => .ok { s with execution := .closed, activePrompt := none }
  | .sessionUpdate update => .ok (s.applySessionUpdate update)
  | .permissionAutoApproved .. | .elicitationRequested .. | .elicitationResolved ..
  | .elicitationsCleared | .warning .. | .sessionRestarted | .userShellOutput ..
  | .terminalOutput .. | .notice .. => .ok s

end RelaySnapshot

end Hel
