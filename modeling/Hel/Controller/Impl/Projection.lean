import Hel.Controller.Impl.Session
import Hel.Worker.Impl.Codec

/-!
This module contains how the controller projects the events of a relay.
-/

namespace Hel

def userItemId (commandId : String) : String := "user:" ++ commandId
def userShellItemId (commandId : String) : String := "shell:" ++ commandId
def toolItemId (toolCallId : String) : String := "tool:" ++ toolCallId
def terminalItemId (terminalId : String) : String := "terminal:" ++ terminalId
def planItemId (ordinal : Nat) : String := "plan:" ++ toString ordinal
def planProposalItemId (ordinal : Nat) : String := "plan-proposal:" ++ toString ordinal
def systemItemId (ordinal : Nat) : String := "system:" ++ toString ordinal
def noticeItemId (commandId : String) : String := "system:notice:" ++ commandId
def sessionRestartItemId (ordinal : Nat) : String :=
  "system:session-restarted:" ++ toString ordinal

def streamItemId (agent : Bool) (id : String) : String :=
  (if agent then "agent:" else "thought:") ++ id

def FALLBACK_TERMINAL_TOOL_ID_PREFIX : String := "hel-terminal:"

def fallbackTerminalToolItemId (terminalId : String) : String :=
  toolItemId (FALLBACK_TERMINAL_TOOL_ID_PREFIX ++ terminalId)

namespace MaterializedSessionMutation

def upsertInto (item : TranscriptItem) : List TranscriptMutation → List TranscriptMutation
  | [] => [.upsert item]
  | .upsert current :: rest =>
    if current.stableId = item.stableId then
      .upsert item :: rest
    else
      .upsert current :: upsertInto item rest
  | .remove stableId :: rest => .remove stableId :: upsertInto item rest

def upsert (mutation : MaterializedSessionMutation) (item : TranscriptItem) :
    MaterializedSessionMutation :=
  { mutation with transcript := upsertInto item mutation.transcript }

def remove (mutation : MaterializedSessionMutation) (stableId : String) :
    MaterializedSessionMutation :=
  { mutation with transcript := mutation.transcript ++ [.remove stableId] }

def closeStreamKind (transcript : Transcript) (agent : Bool) (changedAtMs : Int)
    (mutation : MaterializedSessionMutation) : MaterializedSessionMutation :=
  (transcript.openStreams agent).foldl
    (fun mutation item =>
      mutation.upsert
        { item with
          body := item.body.closed
          lastChangedAtMs := max item.lastChangedAtMs changedAtMs })
    mutation

def closeStreams (transcript : Transcript) (changedAtMs : Int)
    (mutation : MaterializedSessionMutation) : MaterializedSessionMutation :=
  (mutation.closeStreamKind transcript true changedAtMs).closeStreamKind transcript false changedAtMs

end MaterializedSessionMutation

def RelayEvent.newItem (event : RelayEvent) (stableId : String) (body : TranscriptBody) :
    TranscriptItem where
  stableId := stableId
  position := event.ordinal
  latestContentEventOrdinal := none
  createdAtMs := event.recordedAtMs
  lastChangedAtMs := event.recordedAtMs
  body := body

def RelayEvent.newItemAt (event : RelayEvent) (stableId : String) (atMs : Int)
    (body : TranscriptBody) : TranscriptItem :=
  { event.newItem stableId body with createdAtMs := atMs, lastChangedAtMs := atMs }

def TranscriptItem.revised (item : TranscriptItem) (changedAtMs : Int) (body : TranscriptBody) :
    TranscriptItem :=
  { item with body := body, lastChangedAtMs := max item.lastChangedAtMs changedAtMs }

def pushSystem (event : RelayEvent) (text : String) (mutation : MaterializedSessionMutation) :
    MaterializedSessionMutation :=
  mutation.upsert (event.newItem (systemItemId event.ordinal) (.system text))

section Shell

def shellOutput (label text : String) (truncated : Bool) : String :=
  if text.isEmpty then
    ""
  else
    "\n\n" ++ label ++ ":\n" ++ text
      ++ if truncated then
          "\n[output continues; final tail will be shown on completion]"
        else
          ""

def userShellText (command status stdout stderr : String) (stdoutTruncated stderrTruncated : Bool) :
    String :=
  "Shell · " ++ status ++ "\n$ " ++ command ++ shellOutput "stdout" stdout stdoutTruncated
    ++ shellOutput "stderr" stderr stderrTruncated

def userShellStatusText (result : UserShellResult) : String :=
  match result.status with
  | .exited =>
    match result.exitCode with
    | some code => if code = 0 then "done" else "failed (exit " ++ toString code ++ ")"
    | none => "finished"
  | .signaled => "signaled (" ++ result.signal.getD "unknown signal" ++ ")"
  | .timedOut => "timed out"
  | .cancelled => "cancelled"
  | .interrupted => "interrupted"
  | .failed => "failed"

def userShellResultText (result : UserShellResult) : String :=
  userShellText result.command
      (userShellStatusText result ++ " · " ++ toString result.durationMs ++ " ms") result.stdout
      result.stderr result.stdoutTruncated result.stderrTruncated
    ++ match result.error with
      | some error => "\n\nerror: " ++ error
      | none => ""

def reviseShell (transcript : Transcript) (commandId : String) (changedAtMs : Int)
    (text : String → String) (mutation : MaterializedSessionMutation) :
    MaterializedSessionMutation :=
  match transcript.get? (userShellItemId commandId) with
  | none => mutation
  | some existing =>
    let body :=
      match existing.body with
      | .system old => .system (text old)
      | body => body
    mutation.upsert (existing.revised changedAtMs body)

def replaceShell (transcript : Transcript) (commandId : String) (changedAtMs : Int) (text : String)
    (mutation : MaterializedSessionMutation) : MaterializedSessionMutation :=
  match transcript.get? (userShellItemId commandId) with
  | none => mutation
  | some existing => mutation.upsert (existing.revised changedAtMs (.system text))

end Shell

section Stream

-- A chunk only goes to an item of its own kind. `streaming` says whether the item stays open; `none`
-- leaves it as it is.
def TranscriptBody.pushChunk (agent : Bool) (streaming : Option Bool) (chunk : ContentChunk) :
    TranscriptBody → Option TranscriptBody
  | .agent chunks old =>
    if agent then some (.agent (chunks ++ [chunk]) (streaming.getD old)) else none
  | .thought chunks old =>
    if agent then none else some (.thought (chunks ++ [chunk]) (streaming.getD old))
  | _ => none

def TranscriptItem.continued (item : TranscriptItem) (event : RelayEvent) (agent : Bool)
    (body : TranscriptBody) : TranscriptItem :=
  { item.revised event.recordedAtMs body with
    latestContentEventOrdinal :=
      if agent then some event.ordinal else item.latestContentEventOrdinal }

def newStreamItem (event : RelayEvent) (agent running : Bool) (chunk : ContentChunk) :
    TranscriptItem :=
  { event.newItem (streamItemId agent (chunk.messageId.getD (toString event.ordinal)))
      (if agent then .agent [chunk] running else .thought [chunk] running) with
    latestContentEventOrdinal := if agent then some event.ordinal else none }

def streamTarget (transcript : Transcript) (agent : Bool) (chunk : ContentChunk) :
    Option TranscriptItem :=
  match chunk.messageId with
  | some id => transcript.get? (streamItemId agent id)
  | none => transcript.latestOpenStream agent

-- A trailing chunk of an idle session without a message goes to the last item of the transcript if
-- that has its kind.
def trailingTarget (transcript : Transcript) (agent running : Bool) (chunk : ContentChunk) :
    Option TranscriptItem :=
  if chunk.messageId.isNone && !running then
    match transcript.items.getLast? with
    | some last => if (last.body.pushChunk agent none chunk).isSome then some last else none
    | none => none
  else
    none

def pushStreamChunk (current : MaterializedSession) (event : RelayEvent) (agent running : Bool)
    (chunk : ContentChunk) (mutation : MaterializedSessionMutation) :
    Except String MaterializedSessionMutation :=
  match streamTarget current.transcript agent chunk with
  | some item =>
    match item.body.pushChunk agent (some running) chunk with
    | none => .error ("ACP message ID conflicts with transcript item " ++ item.stableId)
    | some body => .ok (mutation.upsert (item.continued event agent body))
  | none =>
    match trailingTarget current.transcript agent running chunk with
    | some item =>
      .ok (mutation.upsert
        (item.continued event agent ((item.body.pushChunk agent none chunk).getD item.body)))
    | none => .ok (mutation.upsert (newStreamItem event agent running chunk))

end Stream

section Tool

def replaceOrPushTerminalRecord (record : TerminalOutputRecord) :
    List TerminalOutputRecord → List TerminalOutputRecord
  | [] => [record]
  | existing :: rest =>
    if existing.terminalId = record.terminalId then
      record :: rest
    else
      existing :: replaceOrPushTerminalRecord record rest

def pushRef (refs : List String) (terminalId : String) : List String :=
  if terminalId ∈ refs then refs else refs ++ [terminalId]

variable (transcript : Transcript)

def findTerminalRecord (terminalId : String) : Option TerminalOutputRecord :=
  match (transcript.get? (terminalItemId terminalId)).map TranscriptItem.body with
  | some (.terminalOutput record) =>
    if record.terminalId = terminalId then some record else none
  | _ => none

-- The one tool that owns a result by its raw value. Calls of the worker own nothing.
def uniquelyMatchingRawTool (record : TerminalOutputRecord) : Option TranscriptItem :=
  let matching := transcript.items.filter (fun item =>
    match item.body with
    | .tool tool => !tool.call.isFallbackTerminal && record.matchesToolRawResult tool.call
    | _ => false)
  match matching with
  | [item] => some item
  | _ => none

def uniquelyMatchingRawTerminal (call : ToolCall) : Option String :=
  let matching := transcript.items.filterMap (fun item =>
    let record :=
      match item.body with
      | .terminalOutput record => some record
      | .tool tool =>
        if tool.call.isFallbackTerminal then tool.terminalOutputs.head? else none
      | _ => none
    match record with
    | some record =>
      if record.matchesToolRawResult call then some record.terminalId else none
    | none => none)
  match matching with
  | [terminalId] => some terminalId
  | _ => none

def fallbackTerminalAlreadyClaimed (call : ToolCall) : Bool :=
  call.isFallbackTerminal && call.terminalIds.any (fun terminalId =>
    transcript.items.any (fun item =>
      terminalId ∈ item.terminalIds && !item.isFallbackTool))

structure ToolDraft where
  mutation : MaterializedSessionMutation
  item : TranscriptItem
  tool : ToolBody

def attachedRefs (tool : ToolBody) : List String :=
  let refs := tool.call.terminalIds.foldl pushRef tool.terminalRefs
  if refs.isEmpty then
    (uniquelyMatchingRawTerminal transcript tool.call).toList
  else
    refs

def takeOutput (draft : ToolDraft) (terminalId : String) : ToolDraft :=
  match findTerminalRecord transcript terminalId with
  | none => draft
  | some record =>
    { draft with
      mutation := draft.mutation.remove (terminalItemId terminalId)
      tool :=
        { draft.tool with
          terminalOutputs := replaceOrPushTerminalRecord record draft.tool.terminalOutputs } }

def attachTerminalOutputs (draft : ToolDraft) : ToolDraft :=
  let refs := attachedRefs transcript draft.tool
  refs.foldl (takeOutput transcript)
    { draft with tool := { draft.tool with terminalRefs := refs } }

def TranscriptItem.replacing (item fallback : TranscriptItem) (mayAdoptIdentity : Bool) :
    TranscriptItem :=
  { item with
    position := if mayAdoptIdentity then min item.position fallback.position else item.position
    createdAtMs :=
      if mayAdoptIdentity then min item.createdAtMs fallback.createdAtMs else item.createdAtMs
    lastChangedAtMs := max item.lastChangedAtMs fallback.lastChangedAtMs }

def ToolBody.replacing (tool fallback : ToolBody) (terminalId : String) : ToolBody :=
  { tool with
    terminalOutputs :=
      fallback.terminalOutputs.foldl
        (fun outputs record => replaceOrPushTerminalRecord record outputs) tool.terminalOutputs
    terminalRefs := pushRef (fallback.terminalRefs.foldl pushRef tool.terminalRefs) terminalId }

def fallbackFor (terminalId : String) : Option (TranscriptItem × ToolBody) :=
  match transcript.get? (fallbackTerminalToolItemId terminalId) with
  | none => none
  | some fallback =>
    match fallback.body with
    | .tool tool => if tool.call.isFallbackTerminal then some (fallback, tool) else none
    | _ => none

def consumeFallbackTool (mayAdoptIdentity : Bool) (draft : ToolDraft)
    (terminalId : String) : ToolDraft :=
  if fallbackTerminalToolItemId terminalId = draft.item.stableId then
    draft
  else
    match fallbackFor transcript terminalId with
    | none => draft
    | some (fallback, tool) =>
      { mutation := draft.mutation.remove (fallbackTerminalToolItemId terminalId)
        item := draft.item.replacing fallback mayAdoptIdentity
        tool := draft.tool.replacing tool terminalId }

def consumeFallbackTerminalTools (mayAdoptIdentity : Bool) (draft : ToolDraft) : ToolDraft :=
  if draft.tool.call.isFallbackTerminal then
    draft
  else
    (draft.tool.call.terminalIds ++ draft.tool.terminalRefs).foldl
      (consumeFallbackTool transcript mayAdoptIdentity) draft

def finalizeFallbackTerminalTool (tool : ToolBody) : ToolBody :=
  if tool.terminalOutputs.isEmpty || !tool.call.isFallbackTerminal then
    tool
  else
    { tool with
      call :=
        { tool.call with
          status :=
            if tool.terminalOutputs.all (·.exitedCleanly) then .completed else .failed } }

def ToolDraft.finish (draft : ToolDraft) : MaterializedSessionMutation :=
  draft.mutation.upsert { draft.item with body := .tool (finalizeFallbackTerminalTool draft.tool) }

def settleTool (mayAdoptIdentity : Bool) (draft : ToolDraft) : MaterializedSessionMutation :=
  (consumeFallbackTerminalTools transcript mayAdoptIdentity
    (attachTerminalOutputs transcript draft)).finish

def conflict (toolCallId : String) : String :=
  "ACP tool call " ++ toolCallId ++ " conflicts with transcript item " ++ toolItemId toolCallId

def projectToolCall (current : MaterializedSession) (event : RelayEvent) (call : ToolCall)
    (mutation : MaterializedSessionMutation) : Except String MaterializedSessionMutation :=
  let mutation := mutation.closeStreams current.transcript event.recordedAtMs
  if fallbackTerminalAlreadyClaimed current.transcript call then
    .ok mutation
  else
    match current.transcript.get? (toolItemId call.toolCallId) with
    | some item =>
      match item.body with
      | .tool tool =>
        .ok (settleTool current.transcript false
          { mutation := mutation
            item :=
              { item with lastChangedAtMs := max item.lastChangedAtMs event.recordedAtMs }
            tool := { tool with call := call } })
      | _ => .error (conflict call.toolCallId)
    | none =>
      let tool := { call := call, terminalOutputs := [], terminalRefs := [] }
      .ok (settleTool current.transcript true
        { mutation := mutation
          item := event.newItem (toolItemId call.toolCallId) (.tool tool)
          tool := tool })

def projectToolCallUpdate (codec : RelayCodec) (current : MaterializedSession) (event : RelayEvent)
    (toolCallId : String) (fields : Json) (mutation : MaterializedSessionMutation) :
    Except String MaterializedSessionMutation :=
  match current.transcript.get? (toolItemId toolCallId) with
  | none => .ok mutation
  | some item =>
    match item.body with
    | .tool tool =>
      .ok (settleTool current.transcript false
        { mutation := mutation.closeStreams current.transcript event.recordedAtMs
          item := { item with lastChangedAtMs := max item.lastChangedAtMs event.recordedAtMs }
          tool := { tool with call := codec.updateToolCall tool.call fields } })
    | _ => .error (conflict toolCallId)

end Tool

section Terminal

def ToolBody.withRecord (tool : ToolBody) (record : TerminalOutputRecord) : ToolBody :=
  { tool with
    terminalOutputs := replaceOrPushTerminalRecord record tool.terminalOutputs
    terminalRefs := pushRef tool.terminalRefs record.terminalId }

-- A tool that refers to the terminal gets its output, unless it is a call of the worker and another
-- tool owns the result.
def attachToReferrer (event : RelayEvent) (record : TerminalOutputRecord)
    (rawOwner : Option TranscriptItem) (mutation : MaterializedSessionMutation)
    (existing : TranscriptItem) : MaterializedSessionMutation :=
  if rawOwner.any (fun owner => owner.stableId ≠ existing.stableId && existing.isFallbackTool) then
    mutation.remove existing.stableId
  else
    match existing.body with
    | .tool tool =>
      mutation.upsert
        (existing.revised event.recordedAtMs
          (.tool (finalizeFallbackTerminalTool (tool.withRecord record))))
    | _ => mutation

def attachToOwner (event : RelayEvent) (record : TerminalOutputRecord) (owner : TranscriptItem)
    (mutation : MaterializedSessionMutation) : MaterializedSessionMutation :=
  match owner.body with
  | .tool tool =>
    mutation.upsert
      (owner.revised event.recordedAtMs
        (.tool
          { tool with
            terminalOutputs := replaceOrPushTerminalRecord record tool.terminalOutputs
            terminalRefs := tool.terminalRefs ++ [record.terminalId] }))
  | _ => mutation

def parkRecord (transcript : Transcript) (event : RelayEvent) (record : TerminalOutputRecord)
    (mutation : MaterializedSessionMutation) : MaterializedSessionMutation :=
  match transcript.get? (terminalItemId record.terminalId) with
  | some existing =>
    mutation.upsert (existing.revised event.recordedAtMs (.terminalOutput record))
  | none =>
    mutation.upsert
      (event.newItem (terminalItemId record.terminalId) (.terminalOutput record))

def projectTerminalOutput (transcript : Transcript) (event : RelayEvent)
    (record : TerminalOutputRecord) (mutation : MaterializedSessionMutation) :
    MaterializedSessionMutation :=
  let rawOwner := uniquelyMatchingRawTool transcript record
  let referrers := transcript.terminalReferrers record.terminalId
  let attached := referrers.foldl (attachToReferrer event record rawOwner) mutation
  match rawOwner with
  | some owner =>
    if referrers.any (·.stableId = owner.stableId) then
      attached
    else
      attachToOwner event record owner attached
  | none => if referrers.isEmpty then parkRecord transcript event record mutation else attached

end Terminal

def configurationValues (options : List SessionConfigOption) : BTreeMap String Json :=
  options.foldl
    (fun values option =>
      match (option.get? "id").bind Json.asString?,
        (option.get? "currentValue").or (option.get? "current_value") with
      | some id, some current => values.insert id current
      | _, _ => values)
    BTreeMap.empty

def currentPlan (transcript : Transcript) : Option TranscriptItem :=
  let latestUserPosition :=
    ((transcript.items.reverse.find? (·.body.isUser)).map (·.position)).getD 0
  transcript.items.reverse.find? (fun item =>
    item.position > latestUserPosition && item.body.isPlan)

variable (current : MaterializedSession)

def projectPlan (event : RelayEvent) (plan : Json)
    (mutation : MaterializedSessionMutation) : MaterializedSessionMutation :=
  let mutation := mutation.closeStreams current.transcript event.recordedAtMs
  match currentPlan current.transcript with
  | some item => mutation.upsert (item.revised event.recordedAtMs (.plan plan))
  | none => mutation.upsert (event.newItem (planItemId event.ordinal) (.plan plan))

def projectSessionUpdate (codec : RelayCodec) (current : MaterializedSession) (event : RelayEvent)
    (mutation : MaterializedSessionMutation) : SessionUpdate →
    Except String MaterializedSessionMutation
  | .agentMessageChunk chunk =>
    pushStreamChunk current event true current.execution.isRunning chunk
      (mutation.closeStreamKind current.transcript false event.recordedAtMs)
  | .agentThoughtChunk chunk =>
    pushStreamChunk current event false current.execution.isRunning chunk
      (mutation.closeStreamKind current.transcript true event.recordedAtMs)
  | .userMessageChunk _ => .ok mutation
  | .toolCall call => projectToolCall current event call mutation
  | .toolCallUpdate toolCallId fields =>
    projectToolCallUpdate codec current event toolCallId fields mutation
  | .plan plan => .ok (projectPlan current event plan mutation)
  | .configOptionUpdate configOptions =>
    .ok { mutation with configuration := some (configurationValues configOptions) }
  | .currentModeUpdate currentModeId =>
    .ok
      { mutation with
        configuration := some (current.configuration.insert "mode" (.string currentModeId)) }
  | .sessionInfoUpdate info =>
    match info.title with
    | .undefined => .ok mutation
    | .null => .ok { mutation with sessionTitle := some none }
    | .value title => .ok { mutation with sessionTitle := some (normalizeSessionTitle title) }
  | .availableCommandsUpdate _ | .usageUpdate _ => .ok mutation

section Command

variable (current : MaterializedSession)

def enqueue (entry : MaterializedQueuedPrompt) : List MaterializedQueuedPrompt :=
  current.queuedPrompts.filter (fun queued => queued.commandId ≠ entry.commandId) ++ [entry]

def titleFromPrompt (contentText : List ContentBlock → String) (current : MaterializedSession)
    (content : List ContentBlock) : Option (Option String) :=
  if current.sessionTitle.isNone then
    ((current.resolvedTitle contentText).or (provisionalSessionTitle (contentText content))).map some
  else
    none

def projectCommandQueued (contentText : List ContentBlock → String) (current : MaterializedSession)
    (event : RelayEvent) (commandId : String) (createdAtMs : Int)
    (mutation : MaterializedSessionMutation) : RelayCommand → MaterializedSessionMutation
  | .prompt prompt =>
    { mutation with
      sessionTitle := titleFromPrompt contentText current prompt
      queuedPrompts := some (enqueue current
        { commandId := commandId, kind := .prompt, content := prompt, queuedAtMs := createdAtMs }) }
  | .setConfig key value =>
    { mutation with
      queuedPrompts := some (enqueue current
        { commandId := commandId
          kind := .setConfig key value
          content := [textBlock (configCommandText key value)]
          queuedAtMs := createdAtMs }) }
  | .runUserShell command =>
    mutation.upsert
      (event.newItemAt (userShellItemId commandId) createdAtMs
        (.system (userShellText command "queued" "" "" false false)))
  | .close _ _ =>
    { mutation.closeStreams current.transcript event.recordedAtMs with execution := some .closing }
  | _ => mutation

-- Only a prompt becomes a turn of the transcript; a configuration change applies between turns.
def projectStart (event : RelayEvent) (commandId : String)
    (startedAtMs : Int) (mutation : MaterializedSessionMutation) : MaterializedSessionMutation :=
  match current.queuedPrompts.find? (·.commandId = commandId) with
  | none => mutation
  | some entry =>
    let mutation :=
      { mutation with
        queuedPrompts := some (current.queuedPrompts.eraseP (·.commandId = commandId)) }
    if entry.kind.isPrompt then
      let mutation :=
        (mutation.closeStreams current.transcript event.recordedAtMs).upsert
          (event.newItemAt (userItemId commandId) startedAtMs (.user entry.content))
      { mutation with execution := some (.running startedAtMs) }
    else
      mutation

def projectCommandStarted (event : RelayEvent)
    (commandId : String) (startedAtMs : Int) (mutation : MaterializedSessionMutation) :
    MaterializedSessionMutation :=
  reviseShell current.transcript commandId startedAtMs
    (Text.replaceFirst "Shell · queued" "Shell · running")
    (projectStart current event commandId startedAtMs mutation)

def withQueue (queue : List MaterializedQueuedPrompt)
    (mutation : MaterializedSessionMutation) : MaterializedSessionMutation :=
  if queue ≠ current.queuedPrompts then { mutation with queuedPrompts := some queue } else mutation

def projectSteered (event : RelayEvent)
    (queue : List MaterializedQueuedPrompt) (queuedCommandId : String)
    (mutation : MaterializedSessionMutation) : Except String MaterializedSessionMutation :=
  match queue.find? (·.commandId = queuedCommandId) with
  | none => .error "steered prompt is missing from the materialized queue"
  | some entry =>
    if !entry.kind.isPrompt then
      .error "steered queue entry is not a prompt"
    else
      .ok (withQueue current (queue.eraseP (·.commandId = queuedCommandId))
        ((mutation.closeStreams current.transcript event.recordedAtMs).upsert
          (event.newItem (userItemId queuedCommandId) (.user entry.content))))

def projectCommandCompleted (event : RelayEvent)
    (commandId : String) (mutation : MaterializedSessionMutation) :
    RelayCommandOutcome → Except String MaterializedSessionMutation :=
  let queue := current.queuedPrompts.filter (fun queued => queued.commandId ≠ commandId)
  fun
  | .prompt _ =>
    .ok (withQueue current queue
      { mutation.closeStreams current.transcript event.recordedAtMs with execution := some .idle })
  | .userShell result =>
    .ok (withQueue current queue
      (replaceShell current.transcript commandId event.recordedAtMs (userShellResultText result)
        mutation))
  | .closed =>
    .ok (withQueue current queue
      { mutation.closeStreams current.transcript event.recordedAtMs with
        execution := some .closed })
  | .queueChanged removedCommandIds =>
    .ok (withQueue current (queue.filter (fun queued => queued.commandId ∉ removedCommandIds))
      mutation)
  | .steered queuedCommandId => projectSteered current event queue queuedCommandId mutation
  | .configured | .sessionModeSet | .cancelled | .checkpointCompleted | .checkpointReleased
  | .recoveryFloorAdvanced | .noticeRecorded | .userShellCancelled =>
    .ok (withQueue current queue mutation)

-- A prompt that became a turn was running; a close that is refused opens the session again.
def projectTermination (event : RelayEvent) (commandId : String)
    (command : RelayCommandKind) (mutation : MaterializedSessionMutation) :
    MaterializedSessionMutation :=
  let mutation :=
    if (current.transcript.get? (userItemId commandId)).isSome then
      { mutation.closeStreams current.transcript event.recordedAtMs with execution := some .idle }
    else
      mutation
  if command = .close ∧ current.execution = .closing then
    { mutation with execution := some .idle }
  else
    mutation

def projectCommandTerminated (event : RelayEvent)
    (commandId : String) (command : RelayCommandKind) (message : String)
    (mutation : MaterializedSessionMutation) : MaterializedSessionMutation :=
  let queue := current.queuedPrompts.filter (fun queued => queued.commandId ≠ commandId)
  let mutation :=
    projectTermination current event commandId command (withQueue current queue mutation)
  if command = .runUserShell then
    reviseShell current.transcript commandId event.recordedAtMs
      (fun text =>
        Text.replaceFirst "Shell · running" "Shell · interrupted"
            (Text.replaceFirst "Shell · queued" "Shell · interrupted" text)
          ++ "\nerror: " ++ message)
      mutation
  else
    pushSystem event ("command " ++ commandId ++ ": " ++ message) mutation

end Command

def PLAN_REVIEW_ID_PREFIX : String := "plan-review-"
def PLAN_REVIEW_MESSAGE_PREFIX : String := "Review the agent's plan:\n\n"

def planReviewProposal (request : ElicitationRequest) : Option String :=
  if PLAN_REVIEW_ID_PREFIX.toList.isPrefixOf request.id.toList then
    (Text.afterStart PLAN_REVIEW_MESSAGE_PREFIX.toList request.message.toList).map String.ofList
  else
    none

def projectElicitationRequested (event : RelayEvent)
    (request : ElicitationRequest) (mutation : MaterializedSessionMutation) :
    MaterializedSessionMutation :=
  let pending := current.pendingElicitations.filter (fun existing => existing.id ≠ request.id)
  let mutation := { mutation with pendingElicitations := some (pending ++ [request]) }
  match planReviewProposal request with
  | some plan =>
    (mutation.closeStreams current.transcript event.recordedAtMs).upsert
      (event.newItem (planProposalItemId event.ordinal) (.planProposal request.id plan))
  | none => mutation

def projectNotice (event : RelayEvent) (message : String)
    (mutation : MaterializedSessionMutation) : MaterializedSessionMutation :=
  let stableId :=
    match event.commandId with
    | some commandId => noticeItemId commandId
    | none => systemItemId event.ordinal
  if (current.transcript.get? stableId).isSome then
    mutation
  else
    mutation.upsert (event.newItem stableId (.system message))

def SESSION_RESTART_TEXT : String := "[session restarted]"

def projectObservation (codec : RelayCodec) (contentText : List ContentBlock → String)
    (current : MaterializedSession) (event : RelayEvent) (mutation : MaterializedSessionMutation) :
    RelayObservation → Except String MaterializedSessionMutation
  | .agentInitialized .. | .sessionModesConfigured .. | .checkpointReady .. => .ok mutation
  | .sessionOpened _ resumed =>
    let mutation := { mutation with pendingElicitations := some [] }
    .ok (if resumed then mutation else pushSystem event "harness session started" mutation)
  | .sessionConfigured configOptions =>
    .ok { mutation with configuration := some (configurationValues configOptions) }
  | .sessionUpdate update => projectSessionUpdate codec current event mutation update
  | .permissionAutoApproved optionId optionName =>
    .ok (pushSystem event
      ("permission auto-approved: " ++ optionName ++ " (" ++ optionId ++ ")") mutation)
  | .elicitationRequested request =>
    .ok (projectElicitationRequested current event request mutation)
  | .elicitationResolved elicitationId _ =>
    .ok
      { mutation with
        pendingElicitations :=
          some (current.pendingElicitations.filter (fun request => request.id ≠ elicitationId)) }
  | .elicitationsCleared => .ok { mutation with pendingElicitations := some [] }
  | .commandQueued commandId command createdAtMs =>
    .ok (projectCommandQueued contentText current event commandId createdAtMs mutation command)
  | .commandStarted commandId startedAtMs =>
    .ok (projectCommandStarted current event commandId startedAtMs mutation)
  | .commandCompleted commandId outcome =>
    projectCommandCompleted current event commandId mutation outcome
  | .commandRejected commandId command message | .commandInterrupted commandId command message =>
    .ok (projectCommandTerminated current event commandId command message mutation)
  | .configurationUpdated key value =>
    .ok { mutation with configuration := some (current.configuration.insert key (.string value)) }
  | .userShellOutput commandId command stdout stderr stdoutTruncated stderrTruncated =>
    .ok (replaceShell current.transcript commandId event.recordedAtMs
      (userShellText command "running" stdout stderr stdoutTruncated stderrTruncated) mutation)
  | .terminalOutput terminalId output truncated exitCode signal =>
    .ok (projectTerminalOutput current.transcript event
      { terminalId := terminalId
        output := output
        truncated := truncated
        exitCode := exitCode
        signal := signal }
      mutation)
  | .warning message => .ok (pushSystem event ("warning: " ++ message) mutation)
  | .sessionRestarted =>
    .ok (mutation.upsert
      (event.newItem (sessionRestartItemId event.ordinal) (.system SESSION_RESTART_TEXT)))
  | .notice message => .ok (projectNotice current event message mutation)
  | .closing =>
    .ok
      { mutation.closeStreams current.transcript event.recordedAtMs with
        execution := some .closing }
  | .closed =>
    .ok
      { mutation.closeStreams current.transcript event.recordedAtMs with execution := some .closed }

def projectRelayEvent (codec : RelayCodec) (contentText : List ContentBlock → String)
    (current : MaterializedSession) (event : RelayEvent) :
    Except String MaterializedSessionMutation :=
  match validateRelayEvent codec current.appliedEventOrdinal current.appliedEventDigest event with
  | .error e => .error e
  | .ok () =>
    projectObservation codec contentText current event
      { lastActivityAtMs := some event.recordedAtMs } event.observation

-- An item may be changed, but not be moved in the transcript or back in time.
def ensureRevision (existing item : TranscriptItem) : Except String Unit :=
  let name := Text.debugString item.stableId
  if existing.position ≠ item.position ∨ existing.createdAtMs ≠ item.createdAtMs then
    .error ("transcript item " ++ name ++ " changed immutable identity fields")
  else if item.lastChangedAtMs < existing.lastChangedAtMs then
    .error ("transcript item " ++ name ++ " moved its changed timestamp backwards")
  else
    match existing.latestContentEventOrdinal, item.latestContentEventOrdinal with
    | some ordinal, some next =>
      if next < ordinal then
        .error ("transcript item " ++ name ++ " moved its latest content ordinal backwards")
      else
        .ok ()
    | some _, none =>
      .error ("transcript item " ++ name ++ " moved its latest content ordinal backwards")
    | none, _ => .ok ()

def applyTranscriptMutation (ordinal : Nat) (transcript : Transcript) :
    TranscriptMutation → Except String Transcript
  | .upsert item =>
    match item.validate ordinal with
    | .error e => .error e
    | .ok () =>
      match transcript.get? item.stableId with
      | none => .ok (transcript.put item)
      | some existing =>
        match ensureRevision existing item with
        | .error e => .error e
        | .ok () => .ok (transcript.put item)
  | .remove stableId => .ok (transcript.erase stableId)

def applyTranscriptMutations (ordinal : Nat) :
    Transcript → List TranscriptMutation → Except String Transcript
  | transcript, [] => .ok transcript
  | transcript, mutation :: rest =>
    match applyTranscriptMutation ordinal transcript mutation with
    | .error e => .error e
    | .ok transcript => applyTranscriptMutations ordinal transcript rest

def latestActivity (existing activity : Option Int) : Option Int :=
  match activity, existing with
  | none, existing => existing
  | some activity, none => some activity
  | some activity, some existing => some (max existing activity)

def applyCommittedProjectionEvent (codec : RelayCodec) (current : MaterializedSession)
    (event : RelayEvent) (mutation : MaterializedSessionMutation) :
    Except String MaterializedSession :=
  match validateRelayEvent codec current.appliedEventOrdinal current.appliedEventDigest event with
  | .error e => .error e
  | .ok () =>
    match applyTranscriptMutations event.ordinal current.transcript mutation.transcript with
    | .error e => .error e
    | .ok transcript =>
      .ok
        { current with
          appliedEventOrdinal := event.ordinal
          appliedEventDigest := event.digest
          lastActivityAtMs := latestActivity current.lastActivityAtMs mutation.lastActivityAtMs
          execution := mutation.execution.getD current.execution
          sessionTitle := mutation.sessionTitle.getD current.sessionTitle
          configuration := mutation.configuration.getD current.configuration
          transcript := transcript
          queuedPrompts := mutation.queuedPrompts.getD current.queuedPrompts
          pendingElicitations :=
            mutation.pendingElicitations.getD current.pendingElicitations }

def projectNext (codec : RelayCodec) (contentText : List ContentBlock → String)
    (current : MaterializedSession) (event : RelayEvent) : Except String MaterializedSession :=
  match projectRelayEvent codec contentText current event with
  | .error e => .error e
  | .ok mutation => applyCommittedProjectionEvent codec current event mutation

def projectAll (codec : RelayCodec) (contentText : List ContentBlock → String) :
    MaterializedSession → List RelayEvent → Except String MaterializedSession
  | current, [] => .ok current
  | current, event :: rest =>
    match projectNext codec contentText current event with
    | .error e => .error e
    | .ok current => projectAll codec contentText current rest

end Hel
