import Hel.Worker.Impl.Claim

/-!
This module contains how a relay is opened from its directory.
-/

namespace Hel

open Program (fail get modify ofExcept)

def validateRestoredRelaySeed (seed : RestoredRelaySeed) : Except String Unit :=
  match validateRelayDigest seed.eventFrontierDigest "restored relay event frontier digest" with
  | .error e => .error e
  | .ok () =>
    if (seed.eventFrontier = 0) ≠ (seed.eventFrontierDigest = RELAY_EVENT_GENESIS_DIGEST) then
      .error "restored relay event frontier and genesis digest disagree"
    else
      .ok ()

def restoredPayload (queued : CanonicalQueuedPrompt) : StoredQueuedRelayPayload :=
  match queued.kind with
  | .prompt => .prompt queued.content
  | .setConfig key value => .setConfig key value

def restoreQueued (frontier : Nat) : List CanonicalQueuedPrompt → RelaySnapshot →
    Except String RelaySnapshot
  | [], s => .ok s
  | queued :: rest, s =>
    match validateIdentifier queued.commandId "restored queued command ID" with
    | .error e => .error e
    | .ok () =>
      if queued.content.isEmpty then
        .error ("restored queued command " ++ queued.commandId ++ " is empty")
      else if s.handledCommands.contains queued.commandId then
        .error
          ("restored canonical session contains duplicate queued command " ++ queued.commandId)
      else
        let payload := restoredPayload queued
        restoreQueued frontier rest
          { s with
            handledCommands := s.handledCommands.insert queued.commandId
              { command := payload.command, acceptedOrdinal := frontier, terminalOrdinal := none }
            dispatches := s.dispatches.insert queued.commandId
              { command := payload.command, state := .queued }
            queuedPrompts := s.queuedPrompts ++
              [{ commandId := queued.commandId
                 payload := payload
                 createdAtMs := queued.queuedAtMs }] }

def restoreSeed (seed : RestoredRelaySeed) (s : RelaySnapshot) : Except String RelaySnapshot :=
  restoreQueued seed.eventFrontier seed.queuedPrompts
    { s with
      latestOrdinal := seed.eventFrontier
      latestDigest := seed.eventFrontierDigest
      acknowledgedThrough := seed.eventFrontier
      acknowledgedDigest := seed.eventFrontierDigest
      recoveryFloorOrdinal := seed.eventFrontier
      recoveryFloorDigest := seed.eventFrontierDigest }

def initialSnapshot (sessionId : String) (seed : Option RestoredRelaySeed) :
    Except String RelaySnapshot :=
  match seed with
  | none => .ok (RelaySnapshot.new sessionId)
  | some seed =>
    match validateRestoredRelaySeed seed with
    | .error e => .error e
    | .ok () => restoreSeed seed (RelaySnapshot.new sessionId)

variable (codec : RelayCodec)

def storedSnapshot (sessionId : String) (disk : Disk) : Except String RelaySnapshot :=
  match disk.stateFile with
  | none => initialSnapshot sessionId disk.seed
  | some stored =>
    match ensureByteBudget (codec.snapshotPrettyLen stored) RELAY_SNAPSHOT_BYTE_BUDGET
        "relay snapshot" with
    | .error e => .error e
    | .ok () =>
      if stored.formatVersion > RELAY_STATE_VERSION then
        .error
          ("relay state schema " ++ toString stored.formatVersion
            ++ " is newer than supported schema " ++ toString RELAY_STATE_VERSION)
      else if stored.sessionId ≠ sessionId then
        .error ("relay state belongs to session " ++ stored.sessionId ++ ", not " ++ sessionId)
      else
        .ok { stored with formatVersion := RELAY_STATE_VERSION }

def repairTornTail : RelayM Unit := do
  let w ← get
  match w.disk.journal.read? .active with
  | none => pure ()
  | some content =>
    if content.torn > 0 then
      diskStep (·.mapJournal (fun d => (d.update .active ({ · with torn := 0 })).sync)) id

def archiveStaleActiveRelayJournal (metadata : RelayJournalSpan) : RelayM Unit := do
  let w ← get
  let archived := JournalFile.staleActive metadata.fileFirstOrdinal metadata.fileLastOrdinal
  match w.disk.journal.read? archived with
  | some _ =>
    fail
      ("cannot preserve stale relay journal " ++ JournalFile.active.display ++ " because "
        ++ archived.display ++ " already exists")
  | none => do
    journalOp (.rename .active archived)
    syncDirectory
    writeFile .activeNew (.ofEvents [])
    journalOp (.rename .activeNew .active)
    syncDirectory

def archiveIfStale : Option RelayJournalSpan → RelayM Unit
  | some stale => archiveStaleActiveRelayJournal stale
  | none => pure ()

def openRelayJournal (snapshot : RelaySnapshot) : RelayM OpenedJournal := do
  let w ← get
  let _ ← ofExcept (inspectRelayJournalFile codec w.disk.journal.files .active)
  repairTornTail
  let w ← get
  let opened ← ofExcept (readRelayJournal codec w.disk.journal.files snapshot)
  archiveIfStale opened.staleActive
  pure opened

variable (s : RelaySnapshot)

def unqueuedCommands (now : Int) : List (Nat × StoredQueuedRelayCommand) :=
  s.dispatches.entries.filterMap (fun (commandId, dispatch) =>
    if dispatch.state ≠ .queued || s.queuedPrompts.any (·.commandId = commandId) then
      none
    else
      match s.handledCommands.get? commandId, StoredQueuedRelayPayload.ofCommand dispatch.command with
      | some handled, some payload =>
        some (handled.acceptedOrdinal,
          { commandId := commandId, payload := payload, createdAtMs := now })
      | _, _ => none)

def adoptedQueue (adopted : List (Nat × StoredQueuedRelayCommand)) :
    List StoredQueuedRelayCommand :=
  let existing := s.queuedPrompts.map (fun queued =>
    (((s.handledCommands.get? queued.commandId).map (·.acceptedOrdinal)).getD 0, queued))
  ((existing ++ adopted).insertionSort (fun a b => a.1 ≤ b.1)).map (·.2)

def adoptUnqueuedQueueCommands : RelayM Unit := do
  let now ← epochMillis
  let w ← get
  let adopted := unqueuedCommands w.relay.snapshot now
  if adopted.isEmpty then
    pure ()
  else
    modifyRelay (fun relay =>
      { relay with
        snapshot := { relay.snapshot with queuedPrompts := adoptedQueue relay.snapshot adopted } })
    persistSnapshot codec

def finishAll (codec : RelayCodec) : List (Nat × String) → RelayM Unit
  | [] => pure ()
  | (_, commandId) :: rest => do
    finishRelayLocalCommand codec commandId
    finishAll codec rest

def interruptAll (codec : RelayCodec) (message : String) : List (Nat × String) → RelayM Unit
  | [] => pure ()
  | (_, commandId) :: rest => do
    let _ ← recordCommandInterrupted codec commandId message
    interruptAll codec message rest

def OWNERLESS_BARRIER : String :=
  "relay restarted without the controller that owned the checkpoint barrier"

def INTERRUPTED_SHELL : String :=
  "worker restarted while the shell command was running; it was not replayed"

def INTERRUPTED_COMMAND : String :=
  "relay restarted while the ACP command was in flight; it was not replayed"

def settleInFlight (commandId : String) : RelayM Bool := do
  let w ← get
  match w.relay.snapshot.dispatches.get? commandId with
  | some { command := .close _ _, .. } => do
    modifyRelay (fun relay =>
      { relay with snapshot := relay.snapshot.setDispatchState commandId .pending })
    pure true
  | some { command := .runUserShell command, .. } => do
    let _ ←
      recordCommandCompleted codec commandId
        (.userShell (RelaySnapshot.terminatedShell .interrupted command INTERRUPTED_SHELL))
    pure false
  | _ => do
    let _ ← recordCommandInterrupted codec commandId INTERRUPTED_COMMAND
    pure false

def persistIf (stale : Bool) : RelayM Unit :=
  if stale then persistSnapshot codec else pure ()

def settleAll (codec : RelayCodec) (restoredClose : Bool) : List (Nat × String) → RelayM Unit
  | [] => persistIf codec restoredClose
  | (_, commandId) :: rest => do
    let restored ← settleInFlight codec commandId
    settleAll codec (restoredClose || restored) rest

def nonterminalRelayLocal : List (Nat × String) :=
  sortAccepted (acceptedWhere s (fun _ dispatch =>
    dispatch.command.isRelayLocal && !dispatch.state.isTerminal))

def ownerlessBarriers : List (Nat × String) :=
  sortAccepted (acceptedWhere s (fun _ dispatch =>
    dispatch.command.isBeginCheckpoint && !dispatch.state.isTerminal))

def inFlightCommands : List (Nat × String) :=
  sortAccepted (acceptedWhere s (fun _ dispatch => dispatch.state = .inFlight))

def recoverNonterminalCommands : RelayM Unit := do
  let w ← get
  finishAll codec (nonterminalRelayLocal w.relay.snapshot)
  let w ← get
  interruptAll codec OWNERLESS_BARRIER (ownerlessBarriers w.relay.snapshot)
  let w ← get
  settleAll codec false (inFlightCommands w.relay.snapshot)

def OpenedJournal.relay (opened : OpenedJournal) : DurableRelay where
  snapshot := opened.snapshot
  journalSpans := opened.spans
  hotEvents := opened.hotEvents
  replayCursors := []
  unpersistedJournalBytes := 0
  journalGeneration := 0

def loadRelay (sessionId : String) : RelayM Unit := do
  let w ← get
  let stored ← ofExcept (storedSnapshot codec sessionId w.disk)
  ofExcept (validateRelaySnapshotFrontiers stored)
  let opened ← openRelayJournal codec stored
  ofExcept
    (ensureByteBudget (codec.operationalStateLen opened.snapshot.operationalState)
      RELAY_STATE_BYTE_BUDGET "relay operational state")
  modifyRelay (fun _ => opened.relay)
  persistIf codec
    (w.disk.stateFile.isNone || opened.snapshot.latestOrdinal > stored.latestOrdinal)

def openRelay (sessionId : String) : RelayM Unit := do
  ofExcept (validateIdentifier sessionId "session ID")
  loadRelay codec sessionId
  adoptUnqueuedQueueCommands codec
  recoverNonterminalCommands codec
  let _ ← promoteNextQueuedCommand codec
  pure ()

end Hel
