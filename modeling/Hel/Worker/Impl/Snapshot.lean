import Hel.Data.BTreeMap
import Hel.Worker.Impl.Event
import Mathlib.Data.String.Basic

/-!
This module contains the durable snapshot of the relay and the updates that the observations of the
journal make to it.
-/

namespace Hel

inductive StoredQueuedRelayPayload where
  | prompt (blocks : List ContentBlock)
  | setConfig (key value : String)
  deriving DecidableEq

namespace StoredQueuedRelayPayload

def command : StoredQueuedRelayPayload → RelayCommand
  | .prompt blocks => .prompt blocks
  | .setConfig key value => .setConfig key value

def ofCommand : RelayCommand → Option StoredQueuedRelayPayload
  | .prompt blocks => some (.prompt blocks)
  | .setConfig key value => some (.setConfig key value)
  | _ => none

def isPrompt : StoredQueuedRelayPayload → Bool
  | .prompt _ => true
  | .setConfig _ _ => false

end StoredQueuedRelayPayload

structure StoredQueuedRelayCommand where
  commandId : String
  payload : StoredQueuedRelayPayload
  createdAtMs : Int
  deriving DecidableEq

structure StoredActiveRelayPrompt where
  commandId : String
  prompt : List ContentBlock
  createdAtMs : Int
  startedAtMs : Int
  deriving DecidableEq

structure ActiveUserShell where
  commandId : String
  command : String
  createdAtMs : Int
  startedAtMs : Option Int
  deriving DecidableEq

inductive RelayExecutionState where
  | idle
  | running
  | closing
  | closed
  deriving DecidableEq

structure PendingPromptContext where
  text : String
  attachedCommandId : Option String
  deriving DecidableEq

structure PendingUserShellContext where
  shellCommandId : String
  acceptedOrdinal : Nat
  text : String
  attachedCommandId : Option String
  deriving DecidableEq

inductive RelayDispatchState where
  | queued
  | pending
  | inFlight
  | completed
  | rejected
  | interrupted
  deriving DecidableEq

namespace RelayDispatchState

def isTerminal : RelayDispatchState → Bool
  | .completed | .rejected | .interrupted => true
  | _ => false

def inProgress : RelayDispatchState → Bool
  | .pending | .inFlight => true
  | _ => false

end RelayDispatchState

structure RelayDispatchRecord where
  command : RelayCommand
  state : RelayDispatchState
  deriving DecidableEq

structure HandledRelayCommand where
  command : RelayCommand
  acceptedOrdinal : Nat
  terminalOrdinal : Option Nat
  deriving DecidableEq

def RELAY_STATE_VERSION : Nat := 2

def RELAY_EVENT_GENESIS_DIGEST : String :=
  "0000000000000000000000000000000000000000000000000000000000000000"

structure RelaySnapshot where
  formatVersion : Nat
  sessionId : String
  execution : RelayExecutionState
  latestOrdinal : Nat
  latestDigest : String
  acknowledgedThrough : Nat
  acknowledgedDigest : String
  recoveryFloorOrdinal : Nat
  recoveryFloorDigest : String
  nativeSessionId : Option String
  agentCapabilities : Option AgentCapabilities
  agentInfo : Option Implementation
  configOptions : List SessionConfigOption
  modes : Option SessionModeState
  availableCommands : List AvailableCommand
  config : BTreeMap String String
  activePrompt : Option StoredActiveRelayPrompt
  queuedPrompts : List StoredQueuedRelayCommand
  pendingPromptContext : Option PendingPromptContext
  pendingUserShellContexts : List PendingUserShellContext
  activeUserShells : BTreeMap String ActiveUserShell
  checkpointBarrier : Option String
  checkpointReadyThrough : Option Nat
  checkpointReadyDigest : Option String
  handledCommands : BTreeMap String HandledRelayCommand
  dispatches : BTreeMap String RelayDispatchRecord
  deriving DecidableEq

namespace RelaySnapshot

def new (sessionId : String) : RelaySnapshot where
  formatVersion := RELAY_STATE_VERSION
  sessionId := sessionId
  execution := .idle
  latestOrdinal := 0
  latestDigest := RELAY_EVENT_GENESIS_DIGEST
  acknowledgedThrough := 0
  acknowledgedDigest := RELAY_EVENT_GENESIS_DIGEST
  recoveryFloorOrdinal := 0
  recoveryFloorDigest := RELAY_EVENT_GENESIS_DIGEST
  nativeSessionId := none
  agentCapabilities := none
  agentInfo := none
  configOptions := []
  modes := none
  availableCommands := []
  config := BTreeMap.empty
  activePrompt := none
  queuedPrompts := []
  pendingPromptContext := none
  pendingUserShellContexts := []
  activeUserShells := BTreeMap.empty
  checkpointBarrier := none
  checkpointReadyThrough := none
  checkpointReadyDigest := none
  handledCommands := BTreeMap.empty
  dispatches := BTreeMap.empty

variable (s : RelaySnapshot)

def retainedThrough : Nat :=
  min s.acknowledgedThrough s.recoveryFloorOrdinal

def retainedDigest : String :=
  if s.acknowledgedThrough ≤ s.recoveryFloorOrdinal then
    s.acknowledgedDigest
  else
    s.recoveryFloorDigest

def activePromptId : Option String :=
  s.activePrompt.map (·.commandId)

def setDispatchState (commandId : String) (state : RelayDispatchState) : RelaySnapshot :=
  { s with dispatches := s.dispatches.modify commandId ({ · with state := state }) }

def setTerminalOrdinal (commandId : String) (ordinal : Nat) : RelaySnapshot :=
  { s with
    handledCommands := s.handledCommands.modify commandId
      ({ · with terminalOrdinal := some ordinal }) }

def terminalize (commandId : String) (state : RelayDispatchState) (ordinal : Nat) : RelaySnapshot :=
  (s.setDispatchState commandId state).setTerminalOrdinal commandId ordinal

def clearBarrier : RelaySnapshot :=
  { s with
    checkpointBarrier := none
    checkpointReadyThrough := none
    checkpointReadyDigest := none }

def dropContexts (commandId : String) : RelaySnapshot :=
  { s with
    pendingPromptContext :=
      if s.pendingPromptContext.bind (·.attachedCommandId) = some commandId then
        none
      else
        s.pendingPromptContext
    pendingUserShellContexts :=
      s.pendingUserShellContexts.filter (fun context => context.attachedCommandId ≠ some commandId) }

def detachContexts (commandId : String) : RelaySnapshot :=
  { s with
    pendingPromptContext :=
      s.pendingPromptContext.map (fun context =>
        if context.attachedCommandId = some commandId then
          { context with attachedCommandId := none }
        else
          context)
    pendingUserShellContexts :=
      s.pendingUserShellContexts.map (fun context =>
        if context.attachedCommandId = some commandId then
          { context with attachedCommandId := none }
        else
          context) }

def pushUserShellContext (commandId : String) (acceptedOrdinal : Nat)
    (result : UserShellResult) : RelaySnapshot :=
  { s with
    pendingUserShellContexts :=
      s.pendingUserShellContexts ++
        [{ shellCommandId := commandId
           acceptedOrdinal := acceptedOrdinal
           text := result.promptContext
           attachedCommandId := none }] }

def removeQueued (commandIds : List String) : RelaySnapshot :=
  { s with
    queuedPrompts := s.queuedPrompts.filter (fun queued => queued.commandId ∉ commandIds) }

end RelaySnapshot

structure ActiveRelayPrompt where
  commandId : String
  createdAtMs : Int
  startedAtMs : Int
  deriving DecidableEq

structure QueuedRelayPrompt where
  commandId : String
  createdAtMs : Int
  deriving DecidableEq

structure RelayOperationalState where
  sessionId : String
  execution : RelayExecutionState
  latestOrdinal : Nat
  latestDigest : String
  acknowledgedThrough : Nat
  acknowledgedDigest : String
  recoveryFloorOrdinal : Nat
  recoveryFloorDigest : String
  nativeSessionId : Option String
  agentCapabilities : Option AgentCapabilities
  agentInfo : Option Implementation
  configOptions : List SessionConfigOption
  modes : Option SessionModeState
  availableCommands : List AvailableCommand
  config : BTreeMap String String
  activePrompt : Option ActiveRelayPrompt
  queuedPrompts : List QueuedRelayPrompt
  activeUserShells : List ActiveUserShell
  checkpointBarrier : Option String
  checkpointReady : Option RelayCursor
  deriving DecidableEq

def RelaySnapshot.operationalState (s : RelaySnapshot) : RelayOperationalState where
  sessionId := s.sessionId
  execution := s.execution
  latestOrdinal := s.latestOrdinal
  latestDigest := s.latestDigest
  acknowledgedThrough := s.acknowledgedThrough
  acknowledgedDigest := s.acknowledgedDigest
  recoveryFloorOrdinal := s.recoveryFloorOrdinal
  recoveryFloorDigest := s.recoveryFloorDigest
  nativeSessionId := s.nativeSessionId
  agentCapabilities := s.agentCapabilities
  agentInfo := s.agentInfo
  configOptions := s.configOptions
  modes := s.modes
  availableCommands := s.availableCommands
  config := s.config
  activePrompt := s.activePrompt.map (fun prompt =>
    { commandId := prompt.commandId
      createdAtMs := prompt.createdAtMs
      startedAtMs := prompt.startedAtMs })
  queuedPrompts := s.queuedPrompts.map (fun prompt =>
    { commandId := prompt.commandId
      createdAtMs := prompt.createdAtMs })
  activeUserShells := s.activeUserShells.values
  checkpointBarrier := s.checkpointBarrier
  checkpointReady :=
    match s.checkpointReadyThrough, s.checkpointReadyDigest with
    | some ordinal, some digest => some { ordinal := ordinal, digest := digest }
    | _, _ => none

end Hel
