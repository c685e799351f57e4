import Hel.Controller.Impl.Transcript
import Hel.Worker.Impl.Snapshot

/-!
This module contains the controller's projection of a session, the titles it derives and the mutation
that one event of the relay makes to it.
-/

namespace Hel

inductive MaterializedExecutionState where
  | idle
  | running (startedAtMs : Int)
  | closing
  | closed
  deriving DecidableEq

def MaterializedExecutionState.isRunning : MaterializedExecutionState → Bool
  | .running _ => true
  | _ => false

inductive QueuedCommandKind where
  | prompt
  | setConfig (key value : String)
  deriving DecidableEq

def QueuedCommandKind.isPrompt : QueuedCommandKind → Bool
  | .prompt => true
  | .setConfig _ _ => false

structure MaterializedQueuedPrompt where
  commandId : String
  kind : QueuedCommandKind
  content : List ContentBlock
  queuedAtMs : Int
  deriving DecidableEq

structure MaterializedSession where
  sessionId : String
  appliedEventOrdinal : Nat
  appliedEventDigest : String
  lastActivityAtMs : Option Int
  execution : MaterializedExecutionState
  sessionTitle : Option String
  configuration : BTreeMap String Json
  transcript : Transcript
  queuedPrompts : List MaterializedQueuedPrompt
  pendingElicitations : List ElicitationRequest
  deriving DecidableEq

def MaterializedSession.empty (sessionId : String) : MaterializedSession where
  sessionId := sessionId
  appliedEventOrdinal := 0
  appliedEventDigest := RELAY_EVENT_GENESIS_DIGEST
  lastActivityAtMs := none
  execution := .idle
  sessionTitle := none
  configuration := BTreeMap.empty
  transcript := KeyedList.empty
  queuedPrompts := []
  pendingElicitations := []

inductive TranscriptMutation where
  | upsert (item : TranscriptItem)
  | remove (stableId : String)
  deriving DecidableEq

structure MaterializedSessionMutation where
  lastActivityAtMs : Option Int := none
  execution : Option MaterializedExecutionState := none
  sessionTitle : Option (Option String) := none
  configuration : Option (BTreeMap String Json) := none
  transcript : List TranscriptMutation := []
  queuedPrompts : Option (List MaterializedQueuedPrompt) := none
  pendingElicitations : Option (List ElicitationRequest) := none
  deriving DecidableEq

def reservedHiddenContextPrefix (text : List Char) : Bool :=
  "hel-".toList.isPrefixOf text || "mj-".toList.isPrefixOf text
    || "user_shell_command".toList.isPrefixOf text

def reservedHiddenContextTag (tag : List Char) : Bool :=
  (("hel-".toList.isPrefixOf tag || "mj-".toList.isPrefixOf tag)
      && tag.all (fun c => ('a' ≤ c && c ≤ 'z') || ('0' ≤ c && c ≤ '9') || c = '-'))
    || tag = "user_shell_command".toList

-- Every round drops at least one tag, so the length of the text is enough fuel.
def stripHiddenFrom : (fuel : Nat) → (text : List Char) → List Char
  | 0, text => text
  | fuel + 1, text =>
    match Text.trimStart text with
    | '<' :: afterOpen =>
      let tag := afterOpen.takeWhile (· ≠ '>')
      match afterOpen.drop tag.length with
      | [] => if reservedHiddenContextPrefix afterOpen then [] else '<' :: afterOpen
      | _ :: inner =>
        if !reservedHiddenContextTag tag then
          '<' :: afterOpen
        else
          match Text.afterLast ("</".toList ++ tag ++ ">".toList) inner with
          | none => []
          | some rest => stripHiddenFrom fuel rest
    | text => text

def stripHiddenPromptContext (text : String) : List Char :=
  stripHiddenFrom (text.toList.length + 1) text.toList

def normalizeSessionTitle (title : String) : Option String :=
  let normalized := [' '].intercalate (Text.words (stripHiddenPromptContext title))
  if normalized.isEmpty then none else some (String.ofList normalized)

def MAX_TITLE_CHARS : Nat := 64

def truncatedTitle (title : List Char) : List Char :=
  let truncated := title.take (MAX_TITLE_CHARS - 1)
  if truncated.any Text.isWhitespace then
    ((truncated.reverse.dropWhile (!Text.isWhitespace ·)).drop 1).reverse
  else
    truncated

def provisionalSessionTitle (prompt : String) : Option String :=
  (normalizeSessionTitle prompt).map (fun normalized =>
    if normalized.toList.length ≤ MAX_TITLE_CHARS then
      normalized
    else
      String.ofList (truncatedTitle normalized.toList ++ ['…']))

def MaterializedSession.resolvedTitle (contentText : List ContentBlock → String)
    (session : MaterializedSession) : Option String :=
  (session.sessionTitle.bind normalizeSessionTitle).or
    ((session.transcript.items.findSome? (fun item =>
        match item.body with
        | .user content => provisionalSessionTitle (contentText content)
        | _ => none)).or
      (session.queuedPrompts.findSome? (fun prompt =>
        if prompt.kind.isPrompt then
          provisionalSessionTitle (contentText prompt.content)
        else
          none)))

def configCommandText (key value : String) : String :=
  if key = "fast-mode" then "/fast" else "/" ++ key ++ " " ++ value

def textBlock (text : String) : ContentBlock :=
  .object [("type", .string "text"), ("text", .string text)]

end Hel
