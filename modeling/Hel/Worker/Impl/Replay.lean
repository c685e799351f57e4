import Hel.Worker.Impl.Journal

/-!
This module contains the replay plan of the relay.
-/

namespace Hel

inductive RelayErrorCode where
  | invalidRequest
  | invalidState
  | desynchronized
  | internal
  deriving DecidableEq

structure RelayErrorDetail where
  requestedAfter : Nat
  requestedDigest : String
  earliestAvailable : Nat
  earliestDigest : String
  latest : Nat
  latestDigest : String
  deriving DecidableEq

structure RelayProtocolError where
  code : RelayErrorCode
  message : String
  retryable : Bool
  detail : Option RelayErrorDetail
  deriving DecidableEq

inductive RelayResponsePayload where
  | attached (state : RelayOperationalState) (events : List RelayEvent) (throughOrdinal : Nat)
      (throughDigest : String)
  | acknowledged (throughOrdinal : Nat) (throughDigest : String)
  | accepted (commandId : String) (ordinal : Nat)
  | promptContextInstalled
  deriving DecidableEq

structure RelayReplayPlan where
  spans : List RelayJournalSpan
  hotDigests : List (Nat × String)
  latestOrdinal : Nat
  latestDigest : String
  acknowledgedThrough : Nat
  acknowledgedDigest : String
  recoveryFloorOrdinal : Nat
  recoveryFloorDigest : String
  retainedThrough : Nat
  retainedDigest : String
  generation : Nat

inductive ReplayVisit where
  | boundary
  | anchor
  | page (index : Nat)
  | recovery (index : Nat)
  deriving DecidableEq

/-- What each read of a plan finds. -/
abbrev JournalView := ReplayVisit → JournalFile → Sighting

def JournalView.of (files : JournalFiles) : JournalView :=
  fun _ path => .of (files.get? path)

inductive ReplayError where
  | unreadable (recoverAfter : Nat)
  | other (message : String)
  deriving DecidableEq

def ReplayError.message : ReplayError → String
  | .unreadable recoverAfter =>
    "relay history is unreadable; readable events resume after event " ++ toString recoverAfter
  | .other message => message

structure RelayEventPage where
  events : List RelayEvent
  throughOrdinal : Nat
  throughDigest : String
  deriving DecidableEq

structure PageState where
  events : List RelayEvent
  used : Nat
  throughOrdinal : Nat
  throughDigest : String
  pageFull : Bool

namespace RelayReplayPlan

variable (codec : RelayCodec) (view : JournalView)

def boundaryVisitor (path : JournalFile) : JournalVisitor (Option String) :=
  fun _ event _ =>
    match validateRelayEventSelf codec event with
    | .error _ => .error ("validate relay journal " ++ path.display)
    | .ok () =>
      if event.format = RELAY_EVENT_FORMAT_V1 ∧ event.previousDigest ≠ "" then
        .ok (.break (some event.previousDigest))
      else
        .ok (.break none)

structure AnchorScan where
  digest : Option String
  previous : Option RelayEvent

def unchainedAfter (previous : Option RelayEvent) (event : RelayEvent) : Bool :=
  match previous with
  | some previous =>
    event.format = RELAY_EVENT_FORMAT_V1 ∧ event.previousDigest ≠ previous.digest
  | none => false

def anchorVisitor (path : JournalFile) (ordinal : Nat) : JournalVisitor AnchorScan :=
  fun state event _ =>
    match validateRelayEventSelf codec event with
    | .error _ => .error ("validate relay journal " ++ path.display)
    | .ok () =>
      if unchainedAfter state.previous event then
        .error
          ("relay journal " ++ path.display ++ " event " ++ toString event.ordinal
            ++ " does not chain from event "
            ++ toString ((state.previous.map (·.ordinal)).getD 0))
      else if event.ordinal = ordinal then
        .ok (.break { state with digest := some event.digest })
      else
        .ok (.continue { state with previous := some event })

variable (plan : RelayReplayPlan)

def boundaryDigest (ordinal : Nat) : Except String (Option String) :=
  match plan.spans.find? (fun span =>
      span.fileFirstOrdinal = ordinal + 1 ∧ ordinal ≥ span.afterOrdinal) with
  | none => .ok none
  | some span =>
    match span.fileFirstPreviousDigest with
    | some digest => .ok (some digest)
    | none =>
      visitSighting codec span.path .strict (boundaryVisitor codec span.path)
        (view .boundary span.path) none

def anchorDigest (ordinal : Nat) : Except String (Option String) :=
  match plan.spans.find? (fun span =>
      ordinal > span.afterOrdinal ∧ ordinal ≤ span.fileLastOrdinal) with
  | none => .ok none
  | some span =>
    match visitSighting codec span.path .strict (anchorVisitor codec span.path ordinal)
        (view .anchor span.path) { digest := none, previous := none } with
    | .error e => .error e
    | .ok scan => .ok scan.digest

def digestAt (ordinal : Nat) : Except String (Option String) :=
  if ordinal = 0 then
    .ok (some RELAY_EVENT_GENESIS_DIGEST)
  else if ordinal = plan.latestOrdinal then
    .ok (some plan.latestDigest)
  else if ordinal = plan.acknowledgedThrough then
    .ok (some plan.acknowledgedDigest)
  else if ordinal = plan.recoveryFloorOrdinal then
    .ok (some plan.recoveryFloorDigest)
  else
    match plan.hotDigests.find? (·.1 = ordinal) with
    | some hot => .ok (some hot.2)
    | none =>
      match plan.boundaryDigest codec view ordinal with
      | .error e => .error e
      | .ok (some digest) => .ok (some digest)
      | .ok none => plan.anchorDigest codec view ordinal

def validateCursor (afterOrdinal : Nat) (afterDigest : String) : Except String Unit :=
  if afterOrdinal < plan.retainedThrough then
    .error
      ("event " ++ toString afterOrdinal ++ " is no longer available; relay retained events after "
        ++ toString plan.retainedThrough)
  else if afterOrdinal > plan.latestOrdinal then
    .error
      ("event " ++ toString afterOrdinal ++ " is newer than relay frontier "
        ++ toString plan.latestOrdinal)
  else
    match validateRelayDigest afterDigest "event cursor digest" with
    | .error e => .error e
    | .ok () =>
      match plan.digestAt codec view afterOrdinal with
      | .error e => .error e
      | .ok none => .error ("relay digest missing at event " ++ toString afterOrdinal)
      | .ok (some expected) =>
        if afterDigest ≠ expected then
          .error
            ("event " ++ toString afterOrdinal ++ " digest does not match the relay event chain")
        else
          .ok ()

def pageVisitor (span : RelayJournalSpan) (byteBudget : Nat) : JournalVisitor PageState :=
  fun state event encodedLen =>
    if event.ordinal ≤ span.afterOrdinal ∨ event.ordinal ≤ state.throughOrdinal then
      .ok (.continue state)
    else if event.ordinal > plan.latestOrdinal then
      -- The active file kept growing after the plan was captured.
      .ok (.break state)
    else if event.ordinal ≠ state.throughOrdinal + 1 then
      .error
        ("relay journal page has a gap after event " ++ toString state.throughOrdinal
          ++ ": found " ++ toString event.ordinal)
    else if event.format = RELAY_EVENT_FORMAT_V1 ∧ event.previousDigest ≠ state.throughDigest then
      .error
        ("relay journal event " ++ toString event.ordinal ++ " does not chain from event "
          ++ toString state.throughOrdinal)
    else
      match validateRelayEvent codec state.throughOrdinal state.throughDigest event with
      | .error _ => .error "validate relay journal page event"
      | .ok () =>
        if !state.events.isEmpty ∧ state.used + encodedLen > byteBudget then
          .ok (.break { state with pageFull := true })
        else
          .ok (.continue
            { state with
              events := state.events ++ [event]
              used := state.used + encodedLen
              throughOrdinal := event.ordinal
              throughDigest := event.digest })

def readSpans (plan : RelayReplayPlan) (byteBudget : Nat) :
    (index : Nat) → List RelayJournalSpan → PageState → Except ReplayError PageState
  | _, [], state => .ok state
  | index, span :: rest, state =>
    if state.pageFull ∨ span.fileLastOrdinal ≤ state.throughOrdinal then
      readSpans plan byteBudget (index + 1) rest state
    else
      match visitSighting codec span.path .strict (plan.pageVisitor codec span byteBudget)
          (view (.page index) span.path) state with
      | .error message =>
        if span.fileLastOrdinal < plan.latestOrdinal then
          .error (.unreadable span.fileLastOrdinal)
        else
          .error (.other message)
      | .ok state =>
        if !state.pageFull
            ∧ state.throughOrdinal < min span.fileLastOrdinal plan.latestOrdinal then
          .error (.other
            ("relay journal " ++ span.path.display ++ " no longer covers event "
              ++ toString span.fileLastOrdinal))
        else
          readSpans plan byteBudget (index + 1) rest state

def readEventsAfter (afterOrdinal : Nat) (afterDigest : String)
    (byteBudget : Nat) : Except ReplayError RelayEventPage :=
  let start : PageState :=
    { events := []
      used := 0
      throughOrdinal := afterOrdinal
      throughDigest := afterDigest
      pageFull := false }
  match plan.readSpans codec view byteBudget 0 plan.spans start with
  | .error e => .error e
  | .ok state =>
    if !state.pageFull
        ∧ (state.throughOrdinal ≠ plan.latestOrdinal ∨ state.throughDigest ≠ plan.latestDigest) then
      .error (.other
        ("relay journal ended at event " ++ toString state.throughOrdinal ++ ", expected frontier "
          ++ toString plan.latestOrdinal))
    else
      .ok
        { events := state.events
          throughOrdinal := state.throughOrdinal
          throughDigest := state.throughDigest }

def recoveryVisitor (corruptLastOrdinal : Nat) : JournalVisitor (Option (Nat × String)) :=
  fun state event _ =>
    if event.ordinal > corruptLastOrdinal ∧ (validateRelayEventSelf codec event).toBool then
      .ok (.break (some (event.ordinal, event.digest)))
    else
      .ok (.continue state)

def recoveryCursorIn (corruptLastOrdinal : Nat) :
    (index : Nat) → List RelayJournalSpan → Option (Nat × String)
  | _, [] => none
  | index, span :: rest =>
    if span.fileLastOrdinal ≤ corruptLastOrdinal then
      recoveryCursorIn corruptLastOrdinal (index + 1) rest
    else
      -- A failing scan counts as one that found nothing.
      match visitSighting codec span.path .recover (recoveryVisitor codec corruptLastOrdinal)
          (view (.recovery index) span.path) none with
      | .ok (some cursor) => some cursor
      | _ => recoveryCursorIn corruptLastOrdinal (index + 1) rest

def recoveryCursorAfter (corruptLastOrdinal : Nat) : Nat × String :=
  (recoveryCursorIn codec view corruptLastOrdinal 0 plan.spans).getD
    (plan.latestOrdinal, plan.latestDigest)

def desynchronizedDetail (requestedAfter : Nat) (requestedDigest : String) : RelayErrorDetail where
  requestedAfter := requestedAfter
  requestedDigest := requestedDigest
  earliestAvailable := plan.retainedThrough
  earliestDigest := plan.retainedDigest
  latest := plan.latestOrdinal
  latestDigest := plan.latestDigest

def attach (afterOrdinal : Nat) (afterDigest : String) (state : RelayOperationalState) :
    Except String (Except RelayProtocolError RelayResponsePayload) :=
  match plan.validateCursor codec view afterOrdinal afterDigest with
  | .error message =>
    .ok (.error
      { code := .desynchronized
        message := message
        retryable := false
        detail := some (plan.desynchronizedDetail afterOrdinal afterDigest) })
  | .ok () =>
    match plan.readEventsAfter codec view afterOrdinal afterDigest RELAY_REPLAY_BYTE_BUDGET with
    | .error (.unreadable recoverAfter) =>
      let earliest := plan.recoveryCursorAfter codec view recoverAfter
      .ok (.error
        { code := .desynchronized
          message := (ReplayError.unreadable recoverAfter).message
          retryable := false
          detail := some
            { requestedAfter := afterOrdinal
              requestedDigest := afterDigest
              earliestAvailable := earliest.1
              earliestDigest := earliest.2
              latest := plan.latestOrdinal
              latestDigest := plan.latestDigest } })
    | .error (.other message) => .error message
    | .ok page =>
      match ensureByteBudget (codec.operationalStateLen state) RELAY_STATE_BYTE_BUDGET
          "relay operational state" with
      | .error message => .error message
      | .ok () =>
        .ok (.ok (.attached state page.events page.throughOrdinal page.throughDigest))

end RelayReplayPlan

end Hel
