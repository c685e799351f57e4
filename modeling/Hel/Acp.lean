import Hel.Data.Json

/-!
This module contains the part of the Agent Client Protocol schema that the worker and the controller
look inside.
-/

namespace Hel

inductive HarnessKind where
  | codex
  | claude
  | kimi
  | grok
  | deepseek
  deriving DecidableEq

abbrev ContentBlock := Json

abbrev AgentCapabilities := Json
abbrev Implementation := Json
abbrev SessionConfigOption := Json
abbrev AvailableCommand := Json

structure ElicitationRequest where
  id : String
  message : String
  title : Option String
  description : Option String
  fields : List Json
  deriving DecidableEq

inductive MaybeUndefined (α : Type) where
  | undefined
  | null
  | value (value : α)
  deriving DecidableEq

structure SessionModeState where
  currentModeId : String
  availableModes : List Json
  deriving DecidableEq

structure ContentChunk where
  content : ContentBlock
  messageId : Option String
  deriving DecidableEq

inductive ToolCallStatus where
  | pending
  | inProgress
  | completed
  | failed
  deriving DecidableEq, Inhabited

structure Diff where
  path : String
  oldText : Option String
  newText : String
  metadata : Option Json
  deriving DecidableEq

inductive ToolCallContent where
  | content (block : ContentBlock)
  | diff (diff : Diff)
  | terminal (terminalId : String)
  deriving DecidableEq

structure ToolCall where
  toolCallId : String
  title : String
  kind : String
  status : ToolCallStatus
  content : List ToolCallContent
  locations : List Json
  rawInput : Option Json
  rawOutput : Option Json
  metadata : Option Json
  deriving DecidableEq

structure SessionInfoUpdate where
  title : MaybeUndefined String
  updatedAt : MaybeUndefined String
  deriving DecidableEq

inductive SessionUpdate where
  | userMessageChunk (chunk : ContentChunk)
  | agentMessageChunk (chunk : ContentChunk)
  | agentThoughtChunk (chunk : ContentChunk)
  | toolCall (call : ToolCall)
  | toolCallUpdate (toolCallId : String) (fields : Json)
  | plan (plan : Json)
  | availableCommandsUpdate (availableCommands : List AvailableCommand)
  | currentModeUpdate (currentModeId : String)
  | configOptionUpdate (configOptions : List SessionConfigOption)
  | sessionInfoUpdate (info : SessionInfoUpdate)
  | usageUpdate (usage : Json)
  deriving DecidableEq

end Hel
