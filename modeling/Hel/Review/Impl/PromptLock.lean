import Mathlib.Logic.Function.Basic
import Hel.Review.Impl.Host
import Hel.Review.Impl.Transcript
import Hel.Session.Impl.Callers

/-!
This module contains the event loop of the review host with the lock that holds the prompts of a
session, and the session actors that look the lock up.
-/

namespace Hel

structure ReviewConfig where
  enabled : Bool
  profile : Option String
  deriving DecidableEq

inductive PersistenceCompletion where
  | opened
  | closed
  deriving DecidableEq

structure Prepared where
  state : TurnReviewState
  seed : TurnReviewSeed

structure PendingOpen where
  epoch : Nat
  prepared : Prepared

structure ReviewSlot where
  epoch : Nat
  driver : TurnReviewDriver
  roles : BTreeMap String RoleTranscript := BTreeMap.empty
  state : TurnReviewState
  generation : Nat := 0

inductive ReviewStep where
  | delta (result : Except String (List RepoDelta))
  | analysis (result : Except String String)
  | roleStarted (role : String) (result : Except String Unit)
  | rolePrompted (role : String) (result : Except String Unit)
  | roleEvents (role : String) (result : Except String (List RelayEvent))
  | dispatches (result : Except String (List ReviewSubagentRequest))

/--
The host of the reviews. `preparations` and `saves` are the tasks it has spawned and whose results
have not come back.
-/
structure ReviewHost where
  promptLock : String → Bool := fun _ => false
  reviews : String → Option ReviewSlot := fun _ => none
  preparing : String → Bool := fun _ => false
  pendingOpen : String → Option PendingOpen := fun _ => none
  closing : String → Bool := fun _ => false
  nextEpoch : Nat := 0
  sessions : String → Option (Option MaterializedSession) := fun _ => none
  persistence : Bool := true
  stopped : Bool := false
  preparations : List String := []
  saves : List (String × PersistenceCompletion) := []

inductive HostEvent where
  | view (sessionId : String) (snapshot : Option MaterializedSession) (config : ReviewConfig)
  | start (sessionId : String) (config : ReviewConfig)
  | prepared (sessionId : String) (prepared : Except String Prepared)
  | stateSaved (sessionId : String) (completion : PersistenceCompletion)
      (result : Except String Unit)
  | step (sessionId : String) (epoch : Nat) (step : ReviewStep)
  | resolve (sessionId : String) (resolution : Resolution)
  | interrupted (sessionIds : List String)
  | persistenceStopped
  | shutdown

namespace ReviewHost

variable (host : ReviewHost) (sessionId : String)

def holdPrompts : ReviewHost :=
  { host with promptLock := Function.update host.promptLock sessionId true }

def releasePrompts : ReviewHost :=
  { host with promptLock := Function.update host.promptLock sessionId false }

def setReview (slot : Option ReviewSlot) : ReviewHost :=
  { host with reviews := Function.update host.reviews sessionId slot }

def setPreparing (preparing : Bool) : ReviewHost :=
  { host with preparing := Function.update host.preparing sessionId preparing }

def setPendingOpen (pending : Option PendingOpen) : ReviewHost :=
  { host with pendingOpen := Function.update host.pendingOpen sessionId pending }

def setClosing (closing : Bool) : ReviewHost :=
  { host with closing := Function.update host.closing sessionId closing }

def execution (snapshot : Option MaterializedSession) : MaterializedExecutionState :=
  match snapshot with
  | none => .idle
  | some session => session.execution

def refuseStart : Option String :=
  if (host.reviews sessionId).isSome then
    some "a review is already open"
  else
    match host.sessions sessionId with
    | none => some "this session is not connected"
    | some watch =>
      if execution watch ≠ .idle then
        some "a review runs between turns; this one is still working"
      else if watch.any (fun session => !session.queuedPrompts.isEmpty) then
        some "prompts are queued; the review waits for them"
      else
        none

def refuseBegin (config : ReviewConfig) : Option String :=
  match host.refuseStart sessionId with
  | some refusal => some refusal
  | none =>
    if host.preparing sessionId then
      some "a review is already starting"
    else if config.profile.isNone then
      some "turn review needs a reviewer: set [review] profile in config.toml"
    else
      none

def begin (config : ReviewConfig) : ReviewHost :=
  match host.refuseBegin sessionId config with
  | some _ => host
  | none =>
    { (host.holdPrompts sessionId).setPreparing sessionId true with
      preparations := host.preparations ++ [sessionId] }

def finishedTurn (snapshot : Option MaterializedSession) : Bool :=
  match host.sessions sessionId with
  | none => false
  | some watch => (execution watch).isRunning && execution snapshot = .idle

def observe (snapshot : Option MaterializedSession)
    (config : ReviewConfig) : ReviewHost :=
  let finished := host.finishedTurn sessionId snapshot
  let host := { host with sessions := Function.update host.sessions sessionId (some snapshot) }
  if finished && config.enabled then
    host.begin sessionId config
  else
    host

def prepared (host : ReviewHost) (sessionId : String) : Except String Prepared → ReviewHost
  | .error _ => (host.setPreparing sessionId false).releasePrompts sessionId
  | .ok prepared =>
    if (host.reviews sessionId).isSome then
      (host.setPreparing sessionId false).releasePrompts sessionId
    else
      let epoch := min (host.nextEpoch + 1) (2 ^ 64 - 1)
      let host := { host with nextEpoch := epoch }
      let active := some ("review-" ++ toString epoch)
      let prepared := { prepared with state := { prepared.state with active := active } }
      if host.persistence then
        { host.setPendingOpen sessionId (some ⟨epoch, prepared⟩) with
          saves := host.saves ++ [(sessionId, .opened)] }
      else
        (host.setPreparing sessionId false).releasePrompts sessionId

def runOne (request : ReviewRequest) : ReviewHost :=
  match host.reviews sessionId with
  | none => host
  | some slot =>
    match request with
    | .startRole _ fresh =>
      if fresh then
        host.setReview sessionId
          (some { slot with generation := min (slot.generation + 1) (2 ^ 64 - 1) })
      else
        host
    | .advanceBaseline _ _ | .recordPriorReview _ | .clearPriorReview =>
      host.setReview sessionId (some { slot with state := slot.state.record request })
    | .close =>
      if host.closing sessionId then
        host
      else if host.persistence then
        { ((host.setReview sessionId (some { slot with state := slot.state.record request })).setClosing
            sessionId true).releasePrompts sessionId with
          saves := host.saves ++ [(sessionId, .closed)] }
      else
        (host.setReview sessionId none).releasePrompts sessionId
    | _ => host

def run (requests : List ReviewRequest) : ReviewHost :=
  requests.foldl (fun host request => host.runOne sessionId request) host

def stateSaved (completion : PersistenceCompletion)
    (result : Except String Unit) : ReviewHost :=
  match completion with
  | .opened =>
    match host.pendingOpen sessionId with
    | none => host
    | some pending =>
      let host := (host.setPendingOpen sessionId none).setPreparing sessionId false
      match result with
      | .error _ => host.releasePrompts sessionId
      | .ok () =>
        let (driver, requests) := TurnReviewDriver.start pending.prepared.seed
        let slot :=
          { epoch := pending.epoch, driver := driver, state := pending.prepared.state : ReviewSlot }
        (host.setReview sessionId (some slot)).run sessionId requests
  | .closed => ((host.setClosing sessionId false).setReview sessionId none).releasePrompts sessionId

def call (host : ReviewHost) (sessionId : String) (slot : ReviewSlot) (call : ReviewCall)
    : ReviewHost :=
  let (driver, requests) := slot.driver.call call
  (host.setReview sessionId (some { slot with driver := driver })).run sessionId requests

def fail (slot : ReviewSlot) (message : String) : ReviewHost :=
  let (driver, requests) := slot.driver.requestFailed message
  let slot := { slot with state := { slot.state with active := none }, driver := driver }
  ((host.setReview sessionId (some slot)).releasePrompts sessionId).run sessionId requests

def resolve (resolution : Resolution) : ReviewHost × Except String Unit :=
  match host.reviews sessionId with
  | none => (host, .error "no review is open for that session")
  | some slot =>
    let decide (call : ReviewCall) : ReviewHost × Except String Unit :=
      if (slot.driver.call call).2.isEmpty then
        (host, .error "the review could not be resolved that way")
      else
        (host.call sessionId slot call, .ok ())
    match resolution with
    | .forwarded =>
      if slot.driver.canForward then
        decide .forward
      else
        (host, .error "there are no findings to forward")
    | .dismissed =>
      if slot.driver.verdict?.isNone then
        (host, .error "the review has not reached a verdict yet")
      else
        decide .dismiss
    | .cancelled => decide .cancel
    | .nothingToReview | .coverageStarted =>
      (host, .error "that is not a resolution a surface can ask for")

def shutdown : ReviewHost :=
  { host with
    promptLock := fun sessionId =>
      host.promptLock sessionId
        && !(host.preparing sessionId || (host.reviews sessionId).isSome)
    reviews := fun _ => none
    preparing := fun _ => false
    pendingOpen := fun _ => none
    closing := fun _ => false
    persistence := false
    stopped := true }

end ReviewHost

inductive StepOutcome where
  | call (call : ReviewCall)
  | fail (message : String)
  | nothing

section Journals

variable (codec : RelayCodec) (contentText : List ContentBlock → String)
  (chunksText : List ContentChunk → String)

def ReviewSlot.readRole (slot : ReviewSlot) (sessionId role : String) (events : List RelayEvent)
    : RoleTranscript :=
  ((slot.roles.get? role).getD {}).apply codec contentText (roleSessionId sessionId role) events

def ReviewStep.outcome (sessionId : String) (slot : ReviewSlot) : ReviewStep → StepOutcome
  | .delta (.ok deltas) => .call (.deltaCaptured deltas)
  | .delta (.error error) => .fail ("the change could not be captured: " ++ error)
  | .analysis result => .call (.analysisCompleted result)
  | .roleStarted role (.ok ()) => .call (.roleStarted role)
  | .roleStarted role (.error error) =>
    if (laneById role).isSome then .call (.laneFailed role error) else .fail error
  | .rolePrompted _ (.ok ()) => .nothing
  | .rolePrompted role (.error error) =>
    .fail ("reviewing role \"" ++ role ++ "\" could not be prompted: " ++ error)
  | .roleEvents _ (.error error) => .fail error
  | .roleEvents role (.ok events) =>
    match slot.driver.turnEnd chunksText (slot.readRole codec contentText sessionId role events) role
        events with
    | some (awaited, answer) => .call (.roleTurnCompleted awaited answer)
    | none => .nothing
  | .dispatches (.ok requests) => .call (.lanesDispatched requests)
  | .dispatches (.error error) =>
    .fail ("the review could not collect the supervisor's specialists: " ++ error)

def ReviewStep.read (sessionId : String) (slot : ReviewSlot) : ReviewStep → ReviewSlot
  | .roleEvents role (.ok events) =>
    { slot with
      roles := slot.roles.insert role (slot.readRole codec contentText sessionId role events) }
  | _ => slot

namespace ReviewHost

def step (host : ReviewHost) (sessionId : String) (epoch : Nat) (step : ReviewStep) : ReviewHost :=
  match host.reviews sessionId with
  | none => host
  | some slot =>
    if slot.epoch ≠ epoch then
      host
    else
      let after := step.read codec contentText sessionId slot
      match step.outcome codec contentText chunksText sessionId slot with
      | .call call => host.call sessionId after call
      | .fail message => host.fail sessionId after message
      | .nothing => host.setReview sessionId (some after)

def handle (host : ReviewHost) (event : HostEvent) : Option ReviewHost :=
  if host.stopped then
    none
  else
    match event with
    | .view sessionId snapshot config => some (host.observe sessionId snapshot config)
    | .start sessionId config => some (host.begin sessionId config)
    | .prepared sessionId prepared =>
      if sessionId ∈ host.preparations then
        some ({ host with preparations := host.preparations.erase sessionId }.prepared sessionId
          prepared)
      else
        none
    | .stateSaved sessionId completion result =>
      if (sessionId, completion) ∈ host.saves then
        some ({ host with saves := host.saves.erase (sessionId, completion) }.stateSaved sessionId
          completion result)
      else
        none
    | .step sessionId epoch step =>
      some (host.step codec contentText chunksText sessionId epoch step)
    | .resolve sessionId resolution => some (host.resolve sessionId resolution).1
    | .interrupted _ => some host
    | .persistenceStopped => some { host with persistence := false }
    | .shutdown => some host.shutdown

end ReviewHost

end Journals

structure LockSystem where
  host : ReviewHost := {}
  actors : String → ActorSystem := fun _ => {}

inductive LockEvent where
  | host (event : HostEvent)
  | actor (sessionId : String) (event : ActorEvent)
  | pass (sessionId : String)

namespace LockSystem

variable (codec : RelayCodec) (contentText : List ContentBlock → String)
  (chunksText : List ContentChunk → String)

def actorNext (s : LockSystem) (sessionId : String) (event : ActorEvent) : Option LockSystem :=
  let next := ((s.actors sessionId).next event).map (fun actor =>
    { s with actors := Function.update s.actors sessionId actor })
  match event with
  | .receive held => if held = s.host.promptLock sessionId then next else none
  | _ => next

def passNext (s : LockSystem) (sessionId : String) : Option LockSystem :=
  match (s.actors sessionId).actor.task with
  | some (.submitting _ _) => if (s.actors sessionId).stopped then none else some s
  | _ => none

def next (s : LockSystem) : LockEvent → Option LockSystem
  | .host event =>
    (s.host.handle codec contentText chunksText event).map (fun host => { s with host := host })
  | .actor sessionId event => s.actorNext sessionId event
  | .pass sessionId => s.passNext sessionId

def Step (s : LockSystem) (event : LockEvent) (t : LockSystem) : Prop :=
  s.next codec contentText chunksText event = some t

end LockSystem

end Hel
