import Hel.Worker.Impl.Storage
import Mathlib.Data.List.Sort

/-!
This module contains the operations of the durable relay.
-/

namespace Hel

open Program (fail get modify ofExcept)

def replayPlan (relay : DurableRelay) : RelayReplayPlan where
  spans := relay.journalSpans
  hotDigests := relay.hotEvents.map (fun event => (event.ordinal, event.digest)) ++ relay.replayCursors
  latestOrdinal := relay.snapshot.latestOrdinal
  latestDigest := relay.snapshot.latestDigest
  acknowledgedThrough := relay.snapshot.acknowledgedThrough
  acknowledgedDigest := relay.snapshot.acknowledgedDigest
  recoveryFloorOrdinal := relay.snapshot.recoveryFloorOrdinal
  recoveryFloorDigest := relay.snapshot.recoveryFloorDigest
  retainedThrough := relay.snapshot.retainedThrough
  retainedDigest := relay.snapshot.retainedDigest
  generation := relay.journalGeneration

def acceptedFirst (a b : Nat × String) : Prop :=
  a.1 < b.1 ∨ a.1 = b.1 ∧ a.2 ≤ b.2

instance : DecidableRel acceptedFirst :=
  fun a b => inferInstanceAs (Decidable (a.1 < b.1 ∨ a.1 = b.1 ∧ a.2 ≤ b.2))

variable (s : RelaySnapshot)

def acceptedWhere (p : String → RelayDispatchRecord → Bool) : List (Nat × String) :=
  (s.dispatches.entries.filter (fun entry => p entry.1 entry.2)).filterMap (fun entry =>
    (s.handledCommands.get? entry.1).map (fun handled => (handled.acceptedOrdinal, entry.1)))

def sortAccepted (entries : List (Nat × String)) : List (Nat × String) :=
  entries.insertionSort acceptedFirst

section Guards

variable (s : RelaySnapshot)

def anyDispatch (p : RelayDispatchRecord → Bool) : Bool :=
  s.dispatches.values.any p

def pendingCloseBarrierId : Option String :=
  s.dispatches.values.findSome? (fun dispatch =>
    if dispatch.state.isTerminal then
      none
    else
      match dispatch.command with
      | .close barrierCommandId _ => some barrierCommandId
      | _ => none)

def closeRequested : Bool :=
  (pendingCloseBarrierId s).isSome

def promotedConfigInProgress : Bool :=
  anyDispatch s (fun dispatch =>
    match dispatch.command with
    | .setConfig _ _ => dispatch.state.inProgress
    | _ => false)

def pendingCheckpointBarrier : Bool :=
  anyDispatch s (fun dispatch => dispatch.command.isBeginCheckpoint && !dispatch.state.isTerminal)

def effectfulCommandInProgress : Bool :=
  s.activePrompt.isSome ||
    anyDispatch s (fun dispatch =>
      (dispatch.command.isEffectfulAcp || dispatch.command.isEffectfulUserShell)
        && dispatch.state.inProgress)

def nextQueuedCheckpoint : Option (Nat × String) :=
  (acceptedWhere s (fun _ dispatch =>
    dispatch.state = .queued && dispatch.command.isBeginCheckpoint)).foldl
      (fun best entry =>
        match best with
        | none => some entry
        | some best => if entry.1 < best.1 then some entry else some best)
      none

def queuedControlsBefore (beforeOrdinal : Nat) : List String :=
  let activePromptOrdinal :=
    s.activePrompt.bind (fun active =>
      (s.handledCommands.get? active.commandId).map (·.acceptedOrdinal))
  let controls :=
    (acceptedWhere s (fun _ dispatch =>
      dispatch.state = .queued && dispatch.command.isEffectfulAcp
        && !dispatch.command.isQueueEntry)).filter (fun entry =>
      -- Controls accepted after the active prompt wait for it, except for its cancellation.
      let waits :=
        match activePromptOrdinal with
        | some prompt => entry.1 > prompt
        | none => false
      let cancels := (s.dispatches.get? entry.2).map (·.command) = some .cancel
      !(waits && !cancels) && entry.1 < beforeOrdinal)
  (controls.insertionSort (fun a b => a.1 ≤ b.1)).map (·.2)

def promotable : Option String :=
  if s.activePrompt.isSome || promotedConfigInProgress s || s.checkpointBarrier.isSome
      || s.execution ≠ .idle || pendingCheckpointBarrier s || closeRequested s then
    none
  else
    match s.queuedPrompts.head? with
    | none => none
    | some queued =>
      let queuedOrdinal :=
        ((s.handledCommands.get? queued.commandId).map (·.acceptedOrdinal)).getD U64_MAX
      let overtakes :=
        s.activeUserShells.keys.any (fun commandId =>
          match s.handledCommands.get? commandId with
          | some handled => handled.acceptedOrdinal < queuedOrdinal
          | none => false)
      if overtakes then none else some queued.commandId

end Guards

variable (codec : RelayCodec)

def startQueued (commandId : String) : RelayM Nat := do
  let startedAtMs ← epochMillis
  appendRelayEvent codec (some commandId) (.commandStarted commandId startedAtMs)

def promoteNextQueuedCommand : RelayM (Option Nat) := do
  let w ← get
  match promotable w.relay.snapshot with
  | none => pure none
  | some commandId => do
    let ordinal ← startQueued codec commandId
    pure (some ordinal)

def relayLocalOutcome : RelayCommand → RelayCommandOutcome
  | .completeCheckpoint _ => .checkpointCompleted
  | .releaseCheckpoint _ => .checkpointReleased
  | .advanceRecoveryFloor _ => .recoveryFloorAdvanced
  | .recordNotice _ => .noticeRecorded
  | .removeQueuedPrompt queuedCommandId =>
    .queueChanged
      (if s.queuedPrompts.any (·.commandId = queuedCommandId) then [queuedCommandId] else [])
  | .clearQueuedPrompts => .queueChanged (s.queuedPrompts.map (·.commandId))
  | _ => .queueChanged []

def announceNotice (commandId : String) : RelayCommand → RelayM Unit
  | .recordNotice text => do
    let _ ← appendRelayEvent codec (some commandId) (.notice text)
    pure ()
  | _ => pure ()

def startIfQueued (commandId : String) (state : RelayDispatchState) : RelayM Unit :=
  if state = .queued then do
    let _ ← startQueued codec commandId
    pure ()
  else
    pure ()

def collectIfReleased (command : RelayCommand) : RelayM Unit :=
  if releasesHistory command then garbageCollectRelayHistory codec else pure ()

def completeRelayLocal (commandId : String) (command : RelayCommand) : RelayM Unit := do
  let w ← get
  let outcome := relayLocalOutcome w.relay.snapshot command
  let _ ← appendRelayEvent codec (some commandId) (.commandCompleted commandId outcome)
  collectIfReleased codec command

def finishRelayLocalCommand (commandId : String) : RelayM Unit := do
  let w ← get
  match w.relay.snapshot.dispatches.get? commandId with
  | none => fail s!"unknown relay-local command {commandId}"
  | some dispatch =>
    if !dispatch.command.isRelayLocal then
      fail s!"command {commandId} is not relay-local"
    else if dispatch.state.isTerminal then
      -- The completion may be durable although the collection after it failed.
      if dispatch.state = .completed then collectIfReleased codec dispatch.command else pure ()
    else do
      announceNotice codec commandId dispatch.command
      startIfQueued codec commandId dispatch.state
      completeRelayLocal codec commandId dispatch.command

def relayProtocolError (code : RelayErrorCode) (message : String) : RelayProtocolError where
  code := code
  message := message
  retryable := false
  detail := none

def recoveryFloorRejection (relay : DurableRelay) (files : JournalFiles)
    (through : RelayCursor) : Except String (Option String) :=
  if through.ordinal > relay.snapshot.latestOrdinal then
    .ok (some ("recovery floor " ++ toString through.ordinal ++ " is ahead of the relay frontier "
        ++ toString relay.snapshot.latestOrdinal))
  else if through.ordinal < relay.snapshot.recoveryFloorOrdinal then
    .ok (some ("recovery floor " ++ toString through.ordinal ++ " is behind the current floor "
        ++ toString relay.snapshot.recoveryFloorOrdinal))
  else if !isRelayDigest through.digest then
    .ok (some "recovery floor digest is malformed")
  else
    match (replayPlan relay).digestAt codec (.of files) through.ordinal with
    | .error e => .error e
    | .ok none =>
      .ok (some ("relay digest is unavailable at event " ++ toString through.ordinal))
    | .ok (some expected) =>
      if through.digest ≠ expected then
        .ok (some ("recovery floor digest does not match the relay event chain at event "
            ++ toString through.ordinal))
      else
        .ok none

def exactCut (barrierCommandId : String) (expected : RelayCursor) : Bool :=
  s.checkpointBarrier = some barrierCommandId
    && s.checkpointReadyThrough = some expected.ordinal
    && s.checkpointReadyDigest = some expected.digest
    && s.latestOrdinal = expected.ordinal
    && s.latestDigest = expected.digest

def commandRejection (relay : DurableRelay) (files : JournalFiles)
    (command : RelayCommand) : Except String (Option RelayProtocolError) :=
  let s := relay.snapshot
  let require (ok : Bool) (code : RelayErrorCode) (message : String) :
      Except String (Option RelayProtocolError) :=
    .ok (if ok then none else some (relayProtocolError code message))
  match command with
  | .prompt prompt => require (!prompt.isEmpty) .invalidRequest "prompt is empty"
  | .runUserShell shell => require (!Text.isBlank shell) .invalidRequest "shell command is empty"
  | .cancelUserShell shellCommandId =>
    require (s.activeUserShells.contains shellCommandId) .invalidState
      "there is no active shell command with that ID"
  | .setConfig key value =>
    require (!Text.isBlank key && !Text.isBlank value) .invalidRequest
      "configuration key and value are required"
  | .recordNotice text => require (!Text.isBlank text) .invalidRequest "notice text is required"
  | .cancel =>
    require s.activePrompt.isSome .invalidState "there is no active prompt to cancel"
  | .removeQueuedPrompt queuedCommandId =>
    require (s.queuedPrompts.any (·.commandId = queuedCommandId)) .invalidRequest
      "unknown queued prompt"
  | .completeCheckpoint barrierCommandId | .releaseCheckpoint barrierCommandId =>
    require (s.checkpointBarrier = some barrierCommandId && s.checkpointReadyThrough.isSome)
      .invalidState "checkpoint barrier is not active"
  | .advanceRecoveryFloor through =>
    match recoveryFloorRejection codec relay files through with
    | .error e => .error e
    | .ok none => .ok none
    | .ok (some message) => .ok (some (relayProtocolError .invalidState message))
  | .close barrierCommandId expected =>
    require (exactCut s barrierCommandId expected) .invalidState
      "close does not match the current checkpoint cut"
  | .clearQueuedPrompts | .setSessionMode _ | .beginCheckpoint _ => .ok none

def closingRejection (command : RelayCommand) : Option RelayProtocolError :=
  let completesPendingClose : Bool :=
    match pendingCloseBarrierId s with
    | some barrier => command = .completeCheckpoint barrier
    | none => false
  if closeRequested s && !completesPendingClose then
    some (relayProtocolError .invalidState "relay session is sealed for close")
  else if (s.execution = .closing || s.execution = .closed) && !completesPendingClose then
    some (relayProtocolError .invalidState "relay session is closing")
  else
    none

def finishIfLocal (commandId : String) (command : RelayCommand) : RelayM Unit :=
  if command.isRelayLocal then finishRelayLocalCommand codec commandId else pure ()

def acceptCommand (commandId : String) (command : RelayCommand) :
    RelayM (Except RelayProtocolError RelayResponsePayload) := do
  let createdAtMs ← epochMillis
  let acceptedOrdinal ←
    appendRelayEvent codec (some commandId) (.commandQueued commandId command createdAtMs)
  finishIfLocal codec commandId command
  let _ ← promoteNextQueuedCommand codec
  pure (.ok (.accepted commandId acceptedOrdinal))

def submitCommand (commandId : String) (command : RelayCommand) :
    RelayM (Except RelayProtocolError RelayResponsePayload) := do
  let w ← get
  let s := w.relay.snapshot
  match ensureByteBudget (codec.commandLen command) RELAY_COMMAND_BYTE_BUDGET "relay command" with
  | .error message => pure (.error (relayProtocolError .invalidRequest message))
  | .ok () =>
    if !isIdentifier commandId then
      pure (.error (relayProtocolError .invalidRequest "invalid command ID"))
    else
      match s.handledCommands.get? commandId with
      | some handled =>
        if handled.command ≠ command then
          pure (.error (relayProtocolError .invalidRequest
            "command ID was already used for a different command"))
        else do
          -- A journal append can succeed before the snapshot write reports an error, so a retry
          -- resumes what is left of a relay-local command.
          finishIfLocal codec commandId command
          pure (.ok (.accepted commandId handled.acceptedOrdinal))
      | none =>
        match closingRejection s command with
        | some error => pure (.error error)
        | none => do
          let rejection ← ofExcept (commandRejection codec w.relay w.disk.journal.files command)
          match rejection with
          | some error => pure (.error error)
          | none => acceptCommand codec commandId command

end Hel
