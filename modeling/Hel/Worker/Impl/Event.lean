import Hel.Acp
import Hel.Data.Text

/-!
This module contains the commands a controller submits to the relay, the observations the relay
journals and the events that carry them.
-/

namespace Hel

structure RelayCursor where
  ordinal : Nat
  digest : String
  deriving DecidableEq

inductive RelayCommandKind where
  | prompt
  | runUserShell
  | cancelUserShell
  | removeQueuedPrompt
  | clearQueuedPrompts
  | setConfig
  | setSessionMode
  | cancel
  | close
  | beginCheckpoint
  | completeCheckpoint
  | releaseCheckpoint
  | advanceRecoveryFloor
  | recordNotice
  deriving DecidableEq

inductive RelayCommand where
  | prompt (prompt : List ContentBlock)
  | runUserShell (command : String)
  | cancelUserShell (shellCommandId : String)
  | removeQueuedPrompt (queuedCommandId : String)
  | clearQueuedPrompts
  | setConfig (key value : String)
  | setSessionMode (modeId : String)
  | cancel
  | close (barrierCommandId : String) (expected : RelayCursor)
  | beginCheckpoint (reason : Option String)
  | completeCheckpoint (barrierCommandId : String)
  | releaseCheckpoint (barrierCommandId : String)
  | advanceRecoveryFloor (through : RelayCursor)
  | recordNotice (text : String)
  deriving DecidableEq

namespace RelayCommand

def isQueueEntry : RelayCommand → Bool
  | .prompt _ | .setConfig _ _ => true
  | _ => false

def isRelayLocal : RelayCommand → Bool
  | .removeQueuedPrompt _ | .clearQueuedPrompts | .completeCheckpoint _ | .releaseCheckpoint _
  | .advanceRecoveryFloor _ | .recordNotice _ => true
  | _ => false

def isEffectfulAcp : RelayCommand → Bool
  | .prompt _ | .setConfig _ _ | .setSessionMode _ | .cancel | .close _ _ => true
  | _ => false

def isEffectfulUserShell : RelayCommand → Bool
  | .runUserShell _ | .cancelUserShell _ => true
  | _ => false

def isPrompt : RelayCommand → Bool
  | .prompt _ => true
  | _ => false

def isClose : RelayCommand → Bool
  | .close _ _ => true
  | _ => false

def isBeginCheckpoint : RelayCommand → Bool
  | .beginCheckpoint _ => true
  | _ => false

def isCompleteCheckpoint : RelayCommand → Bool
  | .completeCheckpoint _ => true
  | _ => false

def kind : RelayCommand → RelayCommandKind
  | .prompt _ => .prompt
  | .runUserShell _ => .runUserShell
  | .cancelUserShell _ => .cancelUserShell
  | .removeQueuedPrompt _ => .removeQueuedPrompt
  | .clearQueuedPrompts => .clearQueuedPrompts
  | .setConfig _ _ => .setConfig
  | .setSessionMode _ => .setSessionMode
  | .cancel => .cancel
  | .close _ _ => .close
  | .beginCheckpoint _ => .beginCheckpoint
  | .completeCheckpoint _ => .completeCheckpoint
  | .releaseCheckpoint _ => .releaseCheckpoint
  | .advanceRecoveryFloor _ => .advanceRecoveryFloor
  | .recordNotice _ => .recordNotice

end RelayCommand

def RelayCommandKind.debug : RelayCommandKind → String
  | .prompt => "Prompt"
  | .runUserShell => "RunUserShell"
  | .cancelUserShell => "CancelUserShell"
  | .removeQueuedPrompt => "RemoveQueuedPrompt"
  | .clearQueuedPrompts => "ClearQueuedPrompts"
  | .setConfig => "SetConfig"
  | .setSessionMode => "SetSessionMode"
  | .cancel => "Cancel"
  | .close => "Close"
  | .beginCheckpoint => "BeginCheckpoint"
  | .completeCheckpoint => "CompleteCheckpoint"
  | .releaseCheckpoint => "ReleaseCheckpoint"
  | .advanceRecoveryFloor => "AdvanceRecoveryFloor"
  | .recordNotice => "RecordNotice"

inductive UserShellStatus where
  | exited
  | signaled
  | timedOut
  | cancelled
  | interrupted
  | failed
  deriving DecidableEq

def UserShellStatus.text : UserShellStatus → String
  | .exited => "exited"
  | .signaled => "signaled"
  | .timedOut => "timed_out"
  | .cancelled => "cancelled"
  | .interrupted => "interrupted"
  | .failed => "failed"

structure UserShellResult where
  command : String
  stdout : String
  stderr : String
  stdoutTruncated : Bool
  stderrTruncated : Bool
  exitCode : Option Int
  signal : Option String
  durationMs : Nat
  status : UserShellStatus
  error : Option String
  deriving DecidableEq

def UserShellResult.promptContext (result : UserShellResult) : String :=
  let line (label : String) (text : Option String) : String :=
    match text with
    | some text => label ++ text
    | none => ""
  let output (label text : String) : String :=
    if text.isEmpty then "" else label ++ Text.escapeMarkup text
  "<user_shell_command>\n<command>" ++ Text.escapeMarkup result.command
    ++ "</command>\n<result>status: " ++ result.status.text
    ++ "\nduration_ms: " ++ toString result.durationMs
    ++ line "\nexit_code: " (result.exitCode.map toString)
    ++ line "\nsignal: " (result.signal.map Text.escapeMarkup)
    ++ line "\nerror: " (result.error.map Text.escapeMarkup)
    ++ output "\nstdout:\n" result.stdout
    ++ output "\nstderr:\n" result.stderr
    ++ "</result>\n</user_shell_command>"

inductive RelayCommandOutcome where
  | prompt (stopReason : String)
  | userShell (result : UserShellResult)
  | userShellCancelled
  | configured
  | sessionModeSet
  | cancelled
  | steered (queuedCommandId : String)
  | closed
  | queueChanged (removedCommandIds : List String)
  | checkpointCompleted
  | checkpointReleased
  | recoveryFloorAdvanced
  | noticeRecorded
  deriving DecidableEq

inductive RelayObservation where
  | agentInitialized (protocolVersion : Nat) (capabilities : AgentCapabilities)
      (agentInfo : Option Implementation)
  | sessionOpened (nativeSessionId : String) (resumed : Bool)
  | sessionConfigured (configOptions : List SessionConfigOption)
  | sessionModesConfigured (modes : Option SessionModeState)
  | sessionUpdate (update : SessionUpdate)
  | permissionAutoApproved (optionId optionName : String)
  | elicitationRequested (request : ElicitationRequest)
  | elicitationResolved (elicitationId action : String)
  | elicitationsCleared
  | commandQueued (commandId : String) (command : RelayCommand) (createdAtMs : Int)
  | commandStarted (commandId : String) (startedAtMs : Int)
  | commandCompleted (commandId : String) (outcome : RelayCommandOutcome)
  | commandRejected (commandId : String) (command : RelayCommandKind) (message : String)
  | commandInterrupted (commandId : String) (command : RelayCommandKind) (message : String)
  | userShellOutput (commandId command stdout stderr : String)
      (stdoutTruncated stderrTruncated : Bool)
  | configurationUpdated (key value : String)
  | checkpointReady (commandId : String) (through : Nat)
  | warning (message : String)
  | sessionRestarted
  | terminalOutput (terminalId output : String) (truncated : Bool) (exitCode : Option Nat)
      (signal : Option String)
  | notice (message : String)
  | closing
  | closed
  deriving DecidableEq

def RELAY_EVENT_FORMAT_V1 : Nat := 1
def RELAY_EVENT_FORMAT_V2 : Nat := 2

structure RelayEvent where
  format : Nat
  ordinal : Nat
  previousDigest : String
  digest : String
  recordedAtMs : Int
  commandId : Option String
  observation : RelayObservation
  deriving DecidableEq

end Hel
