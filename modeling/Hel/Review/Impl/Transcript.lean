import Hel.Controller.Impl.Projection
import Hel.Review.Impl.Driver

/-!
This module contains how the host of a review reads the journal of a role.
-/

namespace Hel

def roleSessionId (primarySessionId role : String) : String :=
  if role = reviewerRole then
    primarySessionId ++ "-reviewer"
  else
    primarySessionId ++ "-review-" ++ role

def ContentChunk.isNonempty (chunk : ContentChunk) : Bool :=
  match (chunk.content.get? "type").bind Json.asString? with
  | some "text" =>
    ((chunk.content.get? "text").bind Json.asString?).any (fun text => !Text.isBlank text)
  | some _ => true
  | none => false

def TranscriptItem.isNonemptyAgentMessage (item : TranscriptItem) : Bool :=
  match item.body with
  | .agent chunks _ => chunks.any ContentChunk.isNonempty
  | _ => false

structure RoleTranscript where
  session : Option MaterializedSession := none
  cursorOrdinal : Nat := 0
  cursorDigest : String := ""

section RoleTranscript

variable (codec : RelayCodec) (contentText : List ContentBlock → String)
  (chunksText : List ContentChunk → String)

namespace RoleTranscript

def applyEvents (session : MaterializedSession) (transcript : RoleTranscript)
    : List RelayEvent → RoleTranscript
  | [] => { transcript with session := some session }
  | event :: rest =>
    match projectNext codec contentText session event with
    | .error _ => applyEvents session transcript rest
    | .ok next =>
      applyEvents next
        { transcript with cursorOrdinal := event.ordinal, cursorDigest := event.digest } rest

def apply (transcript : RoleTranscript) (sessionId : String) (events : List RelayEvent)
    : RoleTranscript :=
  applyEvents codec contentText (transcript.session.getD (.empty sessionId)) transcript events

def latestMessage (transcript : RoleTranscript) : Option TranscriptItem :=
  match transcript.session with
  | none => none
  | some session =>
    session.transcript.items.reverse.find? TranscriptItem.isNonemptyAgentMessage

def latestAnswer (transcript : RoleTranscript) : Option String :=
  match transcript.latestMessage with
  | none => none
  | some item =>
    match item.body with
    | .agent chunks _ =>
      let text := chunksText chunks
      if Text.isBlank text then none else some text
    | _ => none

end RoleTranscript

def RelayEvent.completesPrompt (event : RelayEvent) (commandId : String) : Bool :=
  match event.observation with
  | .commandCompleted id (.prompt _) => id = commandId
  | _ => false

/-- The awaited command and the answer to it, once the events hold the completion of the command. -/
def TurnReviewDriver.turnEnd (driver : TurnReviewDriver) (transcript : RoleTranscript)
    (role : String) (events : List RelayEvent) : Option (String × String) :=
  match driver.awaited.get? role with
  | none => none
  | some awaited =>
    if events.any (·.completesPrompt awaited) then
      some (awaited, (transcript.latestAnswer chunksText).getD "")
    else
      none

def TurnReviewDriver.roleEvents (driver : TurnReviewDriver) (transcript : RoleTranscript)
    (role : String) (events : List RelayEvent) : Reaction :=
  match driver.turnEnd chunksText transcript role events with
  | some (awaited, answer) => driver.roleTurnCompleted awaited answer
  | none => (driver, [])

end RoleTranscript

end Hel
