import Hel.Acp
import Hel.Data.KeyedList
import Hel.Data.Text
import Mathlib.Data.List.Sort

/-!
This module contains the items of a session's transcript as the controller keeps them.
-/

namespace Hel

structure TerminalOutputRecord where
  terminalId : String
  output : String
  truncated : Bool
  exitCode : Option Nat
  signal : Option String
  deriving DecidableEq

namespace TerminalOutputRecord

def exitedCleanly (record : TerminalOutputRecord) : Bool :=
  record.exitCode = some 0 && record.signal.isNone

def matchesRawOutput (record : TerminalOutputRecord) (raw : Json) : Bool :=
  match (raw.get? "exit_code").bind Json.asU32? with
  | none => false
  | some exitCode =>
    if record.exitCode ≠ some exitCode || record.signal.isSome then
      false
    else
      match raw.get? "output" with
      | some (.array bytes) =>
        bytes = (Text.bytes record.output).map (fun byte => Json.number byte.toNat)
      | some (.string output) => output = record.output
      | _ => false

def matchesToolRawResult (record : TerminalOutputRecord) (call : ToolCall) : Bool :=
  match call.status, call.rawOutput with
  | .completed, some raw | .failed, some raw => record.matchesRawOutput raw
  | _, _ => false

end TerminalOutputRecord

-- The terminals of a tool call are kept beside it, since an update replaces its content.
structure ToolBody where
  call : ToolCall
  terminalOutputs : List TerminalOutputRecord
  terminalRefs : List String
  deriving DecidableEq

inductive TranscriptBody where
  | user (content : List ContentBlock)
  | agent (chunks : List ContentChunk) (streaming : Bool)
  | thought (chunks : List ContentChunk) (streaming : Bool)
  | tool (tool : ToolBody)
  | terminalOutput (record : TerminalOutputRecord)
  | plan (plan : Json)
  | planProposal (proposalId plan : String)
  | system (text : String)
  deriving DecidableEq

namespace TranscriptBody

def isAgent : TranscriptBody → Bool
  | .agent _ _ => true
  | _ => false

def isUser : TranscriptBody → Bool
  | .user _ => true
  | _ => false

def isPlan : TranscriptBody → Bool
  | .plan _ => true
  | _ => false

def streaming : TranscriptBody → Bool
  | .agent _ streaming | .thought _ streaming => streaming
  | _ => false

def closed : TranscriptBody → TranscriptBody
  | .agent chunks _ => .agent chunks false
  | .thought chunks _ => .thought chunks false
  | body => body

end TranscriptBody

structure TranscriptItem where
  stableId : String
  position : Nat
  latestContentEventOrdinal : Option Nat
  createdAtMs : Int
  lastChangedAtMs : Int
  body : TranscriptBody
  deriving DecidableEq

def TranscriptItem.validate (item : TranscriptItem) (through : Nat) : Except String Unit :=
  let name := Text.debugString item.stableId
  if Text.isBlank item.stableId then
    .error "materialized transcript item has an empty stable id"
  else if item.position = 0 ∨ item.position > through then
    .error
      ("materialized transcript item " ++ name ++ " has invalid position "
        ++ toString item.position ++ " at frontier " ++ toString through)
  else
    match item.body.isAgent, item.latestContentEventOrdinal with
    | true, some ordinal =>
      if ordinal < item.position ∨ ordinal > through then
        .error
          ("materialized agent message " ++ name ++ " has invalid latest content ordinal "
            ++ toString ordinal ++ " at position " ++ toString item.position ++ " and frontier "
            ++ toString through)
      else if item.lastChangedAtMs < item.createdAtMs then
        .error ("materialized transcript item " ++ name ++ " changed before it was created")
      else
        .ok ()
    | true, none =>
      .error ("materialized agent message " ++ name ++ " has no latest content ordinal")
    | false, some ordinal =>
      .error
        ("non-agent transcript item " ++ name ++ " has latest content ordinal " ++ toString ordinal)
    | false, none =>
      if item.lastChangedAtMs < item.createdAtMs then
        .error ("materialized transcript item " ++ name ++ " changed before it was created")
      else
        .ok ()

abbrev Transcript := KeyedList TranscriptItem.stableId

def TranscriptItem.before (a b : TranscriptItem) : Prop :=
  a.position < b.position ∨ a.position = b.position ∧ a.stableId ≤ b.stableId

instance : DecidableRel TranscriptItem.before := fun a b => by
  unfold TranscriptItem.before
  infer_instance

namespace ToolCall

def FALLBACK_TERMINAL_META_KEY : String := "hel.dev/fallback-terminal"

-- Calls that the worker makes up for terminals whose agent published no call of its own.
def isFallbackTerminal (call : ToolCall) : Bool :=
  (call.metadata.bind (·.get? FALLBACK_TERMINAL_META_KEY)).bind Json.asBool? = some true

def terminalIds (call : ToolCall) : List String :=
  call.content.filterMap (fun
    | .terminal terminalId => some terminalId
    | _ => none)

end ToolCall

namespace TranscriptItem

def isFallbackTool (item : TranscriptItem) : Bool :=
  match item.body with
  | .tool tool => tool.call.isFallbackTerminal
  | _ => false

def terminalIds (item : TranscriptItem) : List String :=
  match item.body with
  | .tool tool => tool.call.terminalIds ++ tool.terminalRefs
  | _ => []

end TranscriptItem

namespace Transcript

def openStreams (transcript : Transcript) (agent : Bool) : List TranscriptItem :=
  (transcript.items.filter (fun item => item.body.streaming && item.body.isAgent = agent)).insertionSort
    TranscriptItem.before

def latestOpenStream (transcript : Transcript) (agent : Bool) : Option TranscriptItem :=
  (transcript.openStreams agent).getLast?

def terminalReferrers (transcript : Transcript) (terminalId : String) : List TranscriptItem :=
  (transcript.items.filter (fun item => terminalId ∈ item.terminalIds)).insertionSort
    (fun a b => a.stableId ≤ b.stableId)

end Transcript

end Hel
