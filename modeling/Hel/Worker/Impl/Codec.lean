import Hel.Worker.Impl.Apply

/-!
This module contains what the relay uses of its encoders, the digest of an event, the sizes of the
JSON documents it bounds and the shortening of observations that are too large for one event, and
the validation and application of events on top of them.
-/

namespace Hel

def RELAY_COMMAND_BYTE_BUDGET : Nat := 1024 * 1024
def RELAY_EVENT_BYTE_BUDGET : Nat := 2 * 1024 * 1024
def RELAY_EVENT_ENVELOPE_RESERVE : Nat := 8 * 1024
def RELAY_STATE_BYTE_BUDGET : Nat := 2 * 1024 * 1024
def RELAY_SNAPSHOT_BYTE_BUDGET : Nat := 16 * 1024 * 1024
def RELAY_REPLAY_BYTE_BUDGET : Nat := 4 * 1024 * 1024
def RELAY_SEGMENT_BYTE_LIMIT : Nat := 1024 * 1024
def RELAY_SNAPSHOT_LAG_BYTE_LIMIT : Nat := 1024 * 1024
def RELAY_HOT_EVENT_CAPACITY : Nat := 32
def RELAY_REPLAY_CURSOR_CAPACITY : Nat := 32
def U64_MAX : Nat := 2 ^ 64 - 1

def RELAY_OBSERVATION_BYTE_BUDGET : Nat := RELAY_EVENT_BYTE_BUDGET - RELAY_EVENT_ENVELOPE_RESERVE

def isRelayDigest (digest : String) : Bool :=
  digest.utf8ByteSize = 64 && (Text.bytes digest).all Text.isLowerHexDigit

def isIdentifier (value : String) : Bool :=
  8 ≤ value.utf8ByteSize && value.utf8ByteSize ≤ 128
    && value.toList.all (fun c => Text.isAsciiAlphanumeric c || c = '-' || c = '_')

namespace RelayObservation

def fromAgent : RelayObservation → Bool
  | .commandQueued .. | .commandStarted .. | .commandCompleted .. | .commandRejected ..
  | .commandInterrupted .. | .checkpointReady .. | .closing | .closed => false
  | _ => true

theorem fromAgent_warning (text : String) : (RelayObservation.warning text).fromAgent := rfl

def compact : RelayObservation → Bool
  | .commandStarted id _ | .checkpointReady id _ => isIdentifier id
  | .commandInterrupted id _ message => isIdentifier id && message.utf8ByteSize ≤ 256
  | .commandCompleted id outcome =>
    isIdentifier id &&
      match outcome with
      | .userShellCancelled | .configured | .sessionModeSet | .cancelled | .closed
      | .checkpointCompleted | .checkpointReleased | .recoveryFloorAdvanced
      | .noticeRecorded => true
      | .steered queuedCommandId => isIdentifier queuedCommandId
      | _ => false
  | .closed | .closing => true
  | _ => false

/--
How shortening its longest strings may change an observation. Tags and identifiers are too short to
be touched; what cannot be shortened enough is replaced by a warning.
-/
inductive Shortened : RelayObservation → RelayObservation → Prop where
  | agent {o o' : RelayObservation} : o.fromAgent → o'.fromAgent → Shortened o o'
  | dropped (o : RelayObservation) (message : String) : Shortened o (.warning message)
  | completed (id : String) (outcome outcome' : RelayCommandOutcome) :
      Shortened (.commandCompleted id outcome) (.commandCompleted id outcome')
  | rejected (id : String) (kind : RelayCommandKind) (message message' : String) :
      Shortened (.commandRejected id kind message) (.commandRejected id kind message')
  | interrupted (id : String) (kind : RelayCommandKind) (message message' : String) :
      Shortened (.commandInterrupted id kind message) (.commandInterrupted id kind message')

def shortenable : RelayObservation → Bool
  | .commandCompleted id _ | .commandRejected id _ _ | .commandInterrupted id _ _ =>
    isIdentifier id
  | o => o.fromAgent

end RelayObservation

/--
The digests of the two record formats, the lengths of the JSON encodings, and the update of a tool
call by the library of the protocol.
-/
structure RelayCodec where
  digestV1 : (ordinal : Nat) → (previousDigest : String) → (recordedAtMs : Int) →
    (commandId : Option String) → RelayObservation → String
  digestV2 : (ordinal : Nat) → (recordedAtMs : Int) → (commandId : Option String) →
    RelayObservation → String
  commandLen : RelayCommand → Nat
  observationLen : RelayObservation → Nat
  eventLen : RelayEvent → Nat
  snapshotLen : RelaySnapshot → Nat
  snapshotPrettyLen : RelaySnapshot → Nat
  operationalStateLen : RelayOperationalState → Nat
  shorten : (budget : Nat) → RelayObservation → RelayObservation
  updateToolCall : ToolCall → (fields : Json) → ToolCall
  -- A digest is printed as 64 lowercase hexadecimal digits, and no event hashes to all zeros.
  digestV2_isRelayDigest (ordinal recordedAtMs commandId observation)
    : isRelayDigest (digestV2 ordinal recordedAtMs commandId observation) = true
  digestV2_ne_genesis (ordinal recordedAtMs commandId observation)
    : digestV2 ordinal recordedAtMs commandId observation ≠ RELAY_EVENT_GENESIS_DIGEST
  -- Every field of an event besides its observation fits into the reserve.
  eventLen_le (event : RelayEvent)
    : event.format = RELAY_EVENT_FORMAT_V2 → event.previousDigest = "" →
      isRelayDigest event.digest → event.ordinal ≤ U64_MAX →
      (∀ id ∈ event.commandId, isIdentifier id) →
      eventLen event ≤ observationLen event.observation + RELAY_EVENT_ENVELOPE_RESERVE
  eventLen_pos (event : RelayEvent) : 0 < eventLen event
  shorten_le (observation : RelayObservation)
    : observationLen (shorten RELAY_OBSERVATION_BYTE_BUDGET observation)
        ≤ RELAY_OBSERVATION_BYTE_BUDGET
  shortened (budget : Nat) (observation : RelayObservation)
    : observation.shortenable → observation.Shortened (shorten budget observation)
  -- Observations about commands whose parts are bounded elsewhere fit into one event.
  compact_fits (observation : RelayObservation)
    : observation.compact → observationLen observation ≤ RELAY_OBSERVATION_BYTE_BUDGET
  queued_fits (id : String) (command : RelayCommand) (createdAtMs : Int)
    : isIdentifier id → commandLen command ≤ RELAY_COMMAND_BYTE_BUDGET →
      observationLen (.commandQueued id command createdAtMs) ≤ RELAY_OBSERVATION_BYTE_BUDGET
  notice_fits (text : String)
    : commandLen (.recordNotice text) ≤ RELAY_COMMAND_BYTE_BUDGET →
      observationLen (.notice text) ≤ RELAY_OBSERVATION_BYTE_BUDGET
  interruptedShell_fits (id command message : String)
    : isIdentifier id → commandLen (.runUserShell command) ≤ RELAY_COMMAND_BYTE_BUDGET →
      message.utf8ByteSize ≤ 256 →
      observationLen
          (.commandCompleted id
            (.userShell (RelaySnapshot.terminatedShell .interrupted command message)))
        ≤ RELAY_OBSERVATION_BYTE_BUDGET
  queueChanged_fits (s : RelaySnapshot) (id : String) (removedCommandIds : List String)
    : isIdentifier id → removedCommandIds.Sublist (s.queuedPrompts.map (·.commandId)) →
      (∀ removed ∈ removedCommandIds, isIdentifier removed) →
      operationalStateLen s.operationalState ≤ RELAY_STATE_BYTE_BUDGET →
      observationLen (.commandCompleted id (.queueChanged removedCommandIds))
        ≤ RELAY_OBSERVATION_BYTE_BUDGET

def ensureByteBudget (size budget : Nat) (description : String) : Except String Unit :=
  if size > budget then
    .error s!"{description} is too large ({size} bytes; maximum {budget})"
  else
    .ok ()

def clampObservation (codec : RelayCodec) (observation : RelayObservation) (budget : Nat) :
    RelayObservation :=
  if codec.observationLen observation ≤ budget then
    observation
  else
    codec.shorten budget observation

def validateRelayDigest (digest name : String) : Except String Unit :=
  if isRelayDigest digest then
    .ok ()
  else
    .error s!"{name} must be 64 lowercase hexadecimal characters"

def validateIdentifier (value name : String) : Except String Unit :=
  if isIdentifier value then .ok () else .error s!"invalid {name}"

def relayEventDigest (codec : RelayCodec) (event : RelayEvent) : Except String String :=
  if event.format = RELAY_EVENT_FORMAT_V1 then
    match validateRelayDigest event.previousDigest "previous event digest" with
    | .error e => .error e
    | .ok () =>
      .ok (codec.digestV1 event.ordinal event.previousDigest event.recordedAtMs event.commandId
        event.observation)
  else if event.format = RELAY_EVENT_FORMAT_V2 then
    if event.previousDigest ≠ "" then
      .error ("v2 relay event " ++ toString event.ordinal ++ " must not carry a previous_digest")
    else
      .ok (codec.digestV2 event.ordinal event.recordedAtMs event.commandId event.observation)
  else
    .error
      ("unknown relay event format " ++ toString event.format ++ " at event "
        ++ toString event.ordinal)

def validateRelayEventSelf (codec : RelayCodec) (event : RelayEvent) : Except String Unit :=
  match validateRelayDigest event.digest "event digest" with
  | .error e => .error e
  | .ok () =>
    match relayEventDigest codec event with
    | .error e => .error e
    | .ok expected =>
      if event.digest ≠ expected then
        .error ("relay event " ++ toString event.ordinal ++ " digest is invalid")
      else
        .ok ()

def validateRelayEvent (codec : RelayCodec) (previousOrdinal : Nat) (previousDigest : String)
    (event : RelayEvent) : Except String Unit :=
  match validateRelayDigest previousDigest "previous cursor digest" with
  | .error e => .error e
  | .ok () =>
    if previousOrdinal ≥ U64_MAX then
      .error "relay event ordinal exhausted"
    else if event.ordinal ≠ previousOrdinal + 1 then
      .error
        ("relay event gap: expected " ++ toString (previousOrdinal + 1) ++ ", found "
          ++ toString event.ordinal)
    else if event.format = RELAY_EVENT_FORMAT_V1 ∧ event.previousDigest ≠ previousDigest then
      .error
        ("relay event " ++ toString event.ordinal ++ " previous digest does not match cursor")
    else
      validateRelayEventSelf codec event

def applyRelayEvent (codec : RelayCodec) (s : RelaySnapshot) (event : RelayEvent) :
    Except String RelaySnapshot :=
  match validateRelayEvent codec s.latestOrdinal s.latestDigest event with
  | .error e => .error e
  | .ok () =>
    match s.applyObservation event.ordinal event.digest event.observation with
    | .error e => .error e
    | .ok s => .ok { s with latestOrdinal := event.ordinal, latestDigest := event.digest }

def validateRelaySnapshotFrontiers (s : RelaySnapshot) : Except String Unit := do
  if s.acknowledgedThrough > s.latestOrdinal then
    throw "relay acknowledgement is ahead of the event frontier"
  if s.recoveryFloorOrdinal > s.latestOrdinal then
    throw "relay recovery floor is ahead of the event frontier"
  validateRelayDigest s.latestDigest "relay latest digest"
  validateRelayDigest s.acknowledgedDigest "relay acknowledgement digest"
  validateRelayDigest s.recoveryFloorDigest "relay recovery floor digest"
  if (s.latestOrdinal = 0) ≠ (s.latestDigest = RELAY_EVENT_GENESIS_DIGEST) then
    throw "relay latest frontier and genesis digest disagree"
  if (s.acknowledgedThrough = 0) ≠ (s.acknowledgedDigest = RELAY_EVENT_GENESIS_DIGEST) then
    throw "relay acknowledgement frontier and genesis digest disagree"
  if (s.recoveryFloorOrdinal = 0) ≠ (s.recoveryFloorDigest = RELAY_EVENT_GENESIS_DIGEST) then
    throw "relay recovery floor and genesis digest disagree"

def releasesHistory : RelayCommand → Bool
  | .completeCheckpoint _ | .advanceRecoveryFloor _ => true
  | _ => false

end Hel
