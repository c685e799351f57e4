import Hel.Controller.Lemmas.Stream

/-!
This module contains the footprint of tool calls and of the output of terminals.
-/

namespace Hel

open KeyedList

variable {current : MaterializedSession} {event : RelayEvent}
variable {terminalId : String} {item : TranscriptItem} {call : ToolCall}
  {mutation : MaterializedSessionMutation} {tool : ToolBody}

section Records

variable {record : TerminalOutputRecord} {records : List TerminalOutputRecord}

theorem findTerminalRecord_some
    (h : findTerminalRecord current.transcript terminalId = some record)
    : ∃ item ∈ current.transcript.items,
        item.stableId = terminalItemId terminalId ∧ item.body = .terminalOutput record := by
  unfold findTerminalRecord at h
  split at h
  next record' hbody =>
    split at h <;> cases h
    obtain ⟨item, hget, hitem⟩ := Option.map_eq_some_iff.mp hbody
    obtain ⟨hmem, heq⟩ := get?_eq_some.mp hget
    exact ⟨item, hmem, heq, hitem⟩
  next => cases h

theorem uniquelyMatchingRawTool_some
    (h : uniquelyMatchingRawTool current.transcript record = some item)
    : item ∈ current.transcript.items ∧ item.isFallbackTool = false
        ∧ ∃ tool, item.body = .tool tool := by
  unfold uniquelyMatchingRawTool at h
  dsimp only at h
  split at h <;> cases h
  rename_i matching hmatching
  have hmem : item ∈ [item] := List.mem_cons_self
  rw [← hmatching, List.mem_filter] at hmem
  refine ⟨hmem.1, ?_⟩
  have hbody := hmem.2
  unfold TranscriptItem.isFallbackTool
  split at hbody
  next tool heq =>
    rw [Bool.and_eq_true, Bool.not_eq_true'] at hbody
    rw [heq]
    exact ⟨hbody.1, tool, rfl⟩
  next => cases hbody

end Records

section Draft

structure Moves (adopts : Bool) (old new : TranscriptItem) : Prop where
  stableId : new.stableId = old.stableId
  latest : new.latestContentEventOrdinal = old.latestContentEventOrdinal
  kept : adopts = false → new.position = old.position ∧ new.createdAtMs = old.createdAtMs
  positive : 0 < old.position → 0 < new.position
  position : new.position ≤ old.position
  createdAtMs : new.createdAtMs ≤ old.createdAtMs
  changed : old.lastChangedAtMs ≤ new.lastChangedAtMs

theorem Moves.refl (adopts : Bool) (item : TranscriptItem) : Moves adopts item item :=
  ⟨rfl, rfl, fun _ => ⟨rfl, rfl⟩, id, Nat.le_refl _, Int.le_refl _, Int.le_refl _⟩

theorem Moves.trans {adopts : Bool} {a b c : TranscriptItem} (hab : Moves adopts a b)
    (hbc : Moves adopts b c) : Moves adopts a c where
  stableId := hbc.stableId.trans hab.stableId
  latest := hbc.latest.trans hab.latest
  kept := fun h => ⟨(hbc.kept h).1.trans (hab.kept h).1, (hbc.kept h).2.trans (hab.kept h).2⟩
  positive := fun h => hbc.positive (hab.positive h)
  position := Nat.le_trans hbc.position hab.position
  createdAtMs := Int.le_trans hbc.createdAtMs hab.createdAtMs
  changed := Int.le_trans hab.changed hbc.changed

theorem moves_replacing {adopts : Bool} {item fallback : TranscriptItem}
    (hpositive : 0 < fallback.position) : Moves adopts item (item.replacing fallback adopts) where
  stableId := rfl
  latest := rfl
  kept := by
    intro h
    subst h
    exact ⟨rfl, rfl⟩
  positive := by
    intro h
    unfold TranscriptItem.replacing
    cases adopts with
    | true => exact Nat.lt_min.mpr ⟨h, hpositive⟩
    | false => exact h
  position := by
    unfold TranscriptItem.replacing
    cases adopts with
    | true => exact Nat.min_le_left _ _
    | false => exact Nat.le_refl _
  createdAtMs := by
    unfold TranscriptItem.replacing
    cases adopts with
    | true => exact Int.min_le_left _ _
    | false => exact Int.le_refl _
  changed := Int.le_max_left _ _

theorem fallbackFor_some {fallback : TranscriptItem}
    (h : fallbackFor current.transcript terminalId = some (fallback, tool))
    : fallback ∈ current.transcript.items
        ∧ fallback.stableId = fallbackTerminalToolItemId terminalId
        ∧ fallback.body = .tool tool ∧ fallback.isFallbackTool := by
  unfold fallbackFor at h
  split at h
  next => cases h
  rename_i item hget
  obtain ⟨hmem, heq⟩ := get?_eq_some.mp hget
  split at h
  next tool' hbody =>
    split at h <;> cases h
    rename_i hfallback
    refine ⟨hmem, heq, hbody, ?_⟩
    unfold TranscriptItem.isFallbackTool
    rw [hbody]
    exact hfallback
  next => cases h

structure Drafted (current : MaterializedSession) (event : RelayEvent) (adopts : Bool)
    (start draft : ToolDraft) : Prop where
  footprint : Footprint current event none draft.mutation.transcript
  upsertIds : upsertIds draft.mutation.transcript = upsertIds start.mutation.transcript
  untouched : start.item.stableId ∉ removals draft.mutation.transcript
  moves : Moves adopts start.item draft.item
  call : draft.tool.call = start.tool.call

structure Startable (current : MaterializedSession) (event : RelayEvent) (start : ToolDraft) :
    Prop where
  closing : Closing current event [.thought, .agent] start.mutation.transcript
  kind : ItemKind.ofId start.item.stableId = some .tool
  positive : 0 < start.item.position

variable {adopts : Bool} {start draft : ToolDraft}

theorem Startable.drafted (adopts : Bool) (h : Startable current event start)
    : Drafted current event adopts start start where
  footprint := h.closing.footprint
  upsertIds := rfl
  untouched := fun hmem => h.closing.fresh h.kind (by decide) (Or.inr hmem)
  moves := .refl adopts _
  call := rfl

namespace Drafted

variable (h : Drafted current event adopts start draft)

include h

theorem takes (hstart : Startable current event start) (hitem : item ∈ current.transcript.items)
    (hdisposable : item.Disposable) (hne : item.stableId ≠ start.item.stableId)
    (hkind : ItemKind.ofId item.stableId = some .tool
      ∨ ItemKind.ofId item.stableId = some .terminalOutput)
    {moved : TranscriptItem} (hmoved : Moves adopts draft.item moved)
    (hcall : tool.call = draft.tool.call)
    : Drafted current event adopts start
        { mutation := draft.mutation.remove item.stableId, item := moved, tool := tool } where
  footprint := by
    apply h.footprint.discard hitem hdisposable
    rw [h.upsertIds]
    intro hmem
    cases hkind with
    | inl hkind | inr hkind => exact hstart.closing.fresh hkind (by decide) (Or.inl hmem)
  upsertIds := (congrArg _ (upserts_concat_remove _ _)).trans h.upsertIds
  untouched := by
    unfold MaterializedSessionMutation.remove
    rw [removals_concat_remove, List.mem_append, List.mem_singleton, not_or]
    exact ⟨h.untouched, hne.symm⟩
  moves := h.moves.trans hmoved
  call := hcall.trans h.call

theorem takeOutput (hstart : Startable current event start) (terminalId : String)
    : Drafted current event adopts start
        (takeOutput current.transcript draft terminalId) := by
  unfold Hel.takeOutput
  cases hfind : findTerminalRecord current.transcript terminalId with
  | none => exact h
  | some record =>
  obtain ⟨item, hitem, heq, hbody⟩ := findTerminalRecord_some hfind
  have hkind := ofId_terminal terminalId
  dsimp only
  rw [← heq] at hkind ⊢
  apply h.takes hstart hitem
  . refine Or.inl ?_
    rw [hbody]
    rfl
  . intro hsame
    rw [hsame, hstart.kind] at hkind
    cases hkind
  . exact Or.inr hkind
  . exact .refl adopts _
  . rfl

theorem foldl_takeOutput (hstart : Startable current event start) (terminalIds : List String)
    : Drafted current event adopts start
        (terminalIds.foldl (Hel.takeOutput current.transcript) draft) := by
  induction terminalIds generalizing draft with
  | nil => exact h
  | cons terminalId rest ih => exact ih (h.takeOutput hstart terminalId)

variable (hstart : Startable current event start)

include hstart

theorem attachTerminalOutputs
    : Drafted current event adopts start
        (attachTerminalOutputs current.transcript draft) := by
  unfold Hel.attachTerminalOutputs
  apply foldl_takeOutput _ hstart
  exact { h with }

theorem consumeFallbackTool (hcurrent : current.WellFormed) (terminalId : String)
    : Drafted current event adopts start
        (consumeFallbackTool current.transcript adopts draft terminalId) := by
  unfold Hel.consumeFallbackTool
  split
  . exact h
  rename_i hne
  split
  . exact h
  rename_i fallback tool hfallback
  obtain ⟨hitem, heq, hbody, hdisposable⟩ := fallbackFor_some hfallback
  have hkind := ofId_tool (FALLBACK_TERMINAL_TOOL_ID_PREFIX ++ terminalId)
  rw [h.moves.stableId, ← heq] at hne
  rw [← heq]
  apply h.takes hstart hitem (Or.inr hdisposable) hne
  . rw [heq]
    exact Or.inl hkind
  . exact moves_replacing (hcurrent fallback hitem).positive
  . rfl

theorem foldl_consumeFallbackTool
    (hcurrent : current.WellFormed) (terminalIds : List String)
    : Drafted current event adopts start
        (terminalIds.foldl (Hel.consumeFallbackTool current.transcript adopts) draft) := by
  induction terminalIds generalizing draft with
  | nil => exact h
  | cons terminalId rest ih =>
    exact ih (h.consumeFallbackTool hstart hcurrent terminalId)

theorem consumeFallbackTerminalTools
    (hcurrent : current.WellFormed)
    : Drafted current event adopts start
        (consumeFallbackTerminalTools current.transcript adopts draft) := by
  unfold Hel.consumeFallbackTerminalTools
  split
  . exact h
  apply h.foldl_consumeFallbackTool hstart hcurrent

theorem not_touched : ¬Touched draft.mutation.transcript start.item.stableId := by
  intro htouched
  cases htouched with
  | inl hmem =>
    rw [h.upsertIds] at hmem
    exact hstart.closing.fresh hstart.kind (by decide) (Or.inl hmem)
  | inr hmem => exact h.untouched hmem

end Drafted

def settledTool (transcript : Transcript) (adopts : Bool) (start : ToolDraft) : TranscriptItem :=
  let draft :=
    consumeFallbackTerminalTools transcript adopts (attachTerminalOutputs transcript start)
  { draft.item with body := .tool (finalizeFallbackTerminalTool draft.tool) }

theorem settleTool_revises (hcurrent : current.WellFormed) (hstart : Startable current event start)
    {old : TranscriptItem} (hold : old ∈ current.transcript.items) (hkind : old.body.kind = .tool)
    (hstableId : start.item.stableId = old.stableId)
    (hposition : start.item.position = old.position)
    (hcreatedAtMs : start.item.createdAtMs = old.createdAtMs)
    (hlatest : start.item.latestContentEventOrdinal = old.latestContentEventOrdinal)
    (hchanged : old.lastChangedAtMs ≤ start.item.lastChangedAtMs)
    : Footprint current event none (settleTool current.transcript false start).transcript := by
  have hattached := (hstart.drafted false).attachTerminalOutputs hstart
  have hdrafted := hattached.consumeFallbackTerminalTools hstart hcurrent
  unfold settleTool ToolDraft.finish
  apply hdrafted.footprint.revise hold
  . constructor
    case stableId => exact hdrafted.moves.stableId.trans hstableId
    case position => exact (hdrafted.moves.kept rfl).1.trans hposition
    case createdAtMs => exact (hdrafted.moves.kept rfl).2.trans hcreatedAtMs
    case changed => exact le_trans hchanged hdrafted.moves.changed
    case latest => exact Or.inl (hdrafted.moves.latest.trans hlatest)
    case kind => exact hkind.symm
  . show ¬Touched _ _
    have := hdrafted.not_touched hstart
    rw [← hdrafted.moves.stableId] at this
    exact this

theorem settleTool_creates (hcurrent : current.WellFormed) (hstart : Startable current event start)
    (hfresh : start.item.stableId ∉ current.transcript.keys)
    (hposition : start.item.position = event.ordinal)
    (hlatest : start.item.latestContentEventOrdinal = none)
    (hchanged : start.item.createdAtMs ≤ start.item.lastChangedAtMs)
    : Footprint current event (some (settledTool current.transcript true start))
        (settleTool current.transcript true start).transcript := by
  have hattached := (hstart.drafted true).attachTerminalOutputs hstart
  have hdrafted := hattached.consumeFallbackTerminalTools hstart hcurrent
  have hstableId : (settledTool current.transcript true start).stableId = start.item.stableId :=
    hdrafted.moves.stableId
  have hnone : (settledTool current.transcript true start).latestContentEventOrdinal = none :=
    hdrafted.moves.latest.trans hlatest
  have hkind : ItemKind.ofId (settledTool current.transcript true start).stableId = some .tool := by
    rw [hstableId]
    exact hstart.kind
  unfold settleTool ToolDraft.finish
  apply hdrafted.footprint.create
  . constructor
    case proper =>
      constructor
      case named => exact hkind
      case numbered => exact numbered_of_ofId hkind (by decide) (by decide) (by decide)
      case positive => exact hdrafted.moves.positive hstart.positive
      case le_through => exact le_trans hdrafted.moves.position (le_of_eq hposition)
      case content =>
        rw [hnone]
        rfl
      case latest =>
        rw [hnone]
        nofun
      case changed =>
        exact le_trans hdrafted.moves.createdAtMs (le_trans hchanged hdrafted.moves.changed)
    case place =>
      rw [hstableId]
      exact Or.inr hfresh
  . rw [hstableId]
    exact hdrafted.not_touched hstart

end Draft

section Calls

theorem kind_eq_tool {body : TranscriptBody} (h : body.kind = .tool) : ∃ tool, body = .tool tool := by
  cases body with
  | tool tool => exact ⟨tool, rfl⟩
  | _ => cases h

theorem tool_of_get? (hcurrent : current.WellFormed) {toolCallId : String}
    (hget : get? current.transcript (toolItemId toolCallId) = some item)
    : item ∈ current.transcript.items ∧ ItemKind.ofId item.stableId = some .tool
        ∧ item.body.kind = .tool ∧ ∃ tool, item.body = .tool tool := by
  obtain ⟨hitem, heq⟩ := get?_eq_some.mp hget
  have hkind : ItemKind.ofId item.stableId = some .tool := by
    rw [heq]
    exact ofId_tool _
  have hbody := (hcurrent item hitem).named
  rw [hkind, Option.some.injEq] at hbody
  exact ⟨hitem, hkind, hbody.symm, kind_eq_tool hbody.symm⟩

def newToolDraft (event : RelayEvent) (call : ToolCall) (mutation : MaterializedSessionMutation) :
    ToolDraft :=
  let tool := { call := call, terminalOutputs := [], terminalRefs := [] }
  { mutation := mutation
    item := event.newItem (toolItemId call.toolCallId) (.tool tool)
    tool := tool }

theorem projectToolCall_footprint (hcurrent : current.WellFormed) (hpositive : 0 < event.ordinal)
    (call : ToolCall) (hempty : mutation.transcript = [])
    : ∃ mutation' created,
        projectToolCall current event call mutation = .ok mutation'
          ∧ Footprint current event created mutation'.transcript
          ∧ ∀ item, created = some item →
              item.stableId ∉ current.transcript.keys
                ∧ fallbackTerminalAlreadyClaimed current.transcript call = false
                ∧ item = settledTool current.transcript true (newToolDraft event call
                    (mutation.closeStreams current.transcript event.recordedAtMs)) := by
  have hclosing : Closing current event [.thought, .agent]
      (mutation.closeStreams current.transcript event.recordedAtMs).transcript :=
    .closeStreams hempty hcurrent
  unfold projectToolCall
  dsimp only
  split
  . exact ⟨_, none, rfl, hclosing.footprint, by rintro _ ⟨⟩⟩
  rename_i hclaimed
  cases hget : get? current.transcript (toolItemId call.toolCallId) with
  | some item =>
    obtain ⟨hitem, hkind, hbody, tool, htool⟩ := tool_of_get? hcurrent hget
    dsimp only
    rw [htool]
    refine ⟨_, none, rfl, ?_, by rintro _ ⟨⟩⟩
    apply settleTool_revises hcurrent _ hitem hbody rfl rfl rfl rfl (Int.le_max_left _ _)
    exact ⟨hclosing, hkind, (hcurrent item hitem).positive⟩
  | none =>
  have hstart : Startable current event (newToolDraft event call
      (mutation.closeStreams current.transcript event.recordedAtMs)) :=
    ⟨hclosing, ofId_tool _, hpositive⟩
  have hfresh := get?_eq_none.mp hget
  have hfootprint := settleTool_creates hcurrent hstart hfresh rfl rfl (Int.le_refl _)
  refine ⟨_, _, rfl, hfootprint, ?_⟩
  intro item hitem
  cases hitem
  refine ⟨?_, by simpa using hclaimed, rfl⟩
  have hattached := (hstart.drafted true).attachTerminalOutputs hstart
  have hdrafted := hattached.consumeFallbackTerminalTools hstart hcurrent
  show _ ∉ _
  have hstableId := hdrafted.moves.stableId
  unfold settledTool
  dsimp only
  rw [hstableId]
  exact hfresh

theorem projectToolCallUpdate_footprint (codec : RelayCodec) (hcurrent : current.WellFormed)
    (toolCallId : String) (fields : Json) (hempty : mutation.transcript = [])
    : ∃ mutation',
        projectToolCallUpdate codec current event toolCallId fields mutation = .ok mutation'
          ∧ Footprint current event none mutation'.transcript := by
  unfold projectToolCallUpdate
  cases hget : get? current.transcript (toolItemId toolCallId) with
  | none =>
    refine ⟨_, rfl, ?_⟩
    rw [hempty]
    exact .nil
  | some item =>
  obtain ⟨hitem, hkind, hbody, tool, htool⟩ := tool_of_get? hcurrent hget
  dsimp only
  rw [htool]
  refine ⟨_, rfl, ?_⟩
  apply settleTool_revises hcurrent _ hitem hbody rfl rfl rfl rfl (Int.le_max_left _ _)
  exact ⟨.closeStreams hempty hcurrent, hkind, (hcurrent item hitem).positive⟩

end Calls

section Outputs

theorem mem_terminalReferrers {transcript : Transcript}
    : item ∈ transcript.terminalReferrers terminalId
        ↔ item ∈ transcript.items ∧ terminalId ∈ item.terminalIds := by
  unfold Transcript.terminalReferrers
  rw [List.mem_insertionSort, List.mem_filter, decide_eq_true_eq]

theorem nodup_terminalReferrers (transcript : Transcript) (terminalId : String)
    : ((transcript.terminalReferrers terminalId).map TranscriptItem.stableId).Nodup := by
  unfold Transcript.terminalReferrers
  rw [((List.perm_insertionSort _ _).map _).nodup_iff]
  exact transcript.nodup.sublist (List.filter_sublist.map _)

variable {record : TerminalOutputRecord}

theorem attachToReferrer_touches (record : TerminalOutputRecord)
    (rawOwner : Option TranscriptItem) (existing : TranscriptItem)
    : Touches event existing mutation.transcript
        (attachToReferrer event record rawOwner mutation existing).transcript := by
  unfold attachToReferrer
  split
  next hany =>
    apply Touches.discard
    cases rawOwner with
    | none => cases hany
    | some owner =>
      rw [Option.any_some, Bool.and_eq_true] at hany
      exact Or.inr hany.2
  split
  next tool htool =>
    apply Touches.revise
    apply revises_revised
    rw [htool]
    rfl
  next => exact .keep _

theorem parkRecord_footprint (hcurrent : current.WellFormed) (hpositive : 0 < event.ordinal)
    (hempty : mutation.transcript = [])
    : ∃ created,
        Footprint current event created
            (parkRecord current.transcript event record mutation).transcript
          ∧ ∀ item, created = some item →
              item.stableId ∉ current.transcript.keys ∧ item.body.kind = .terminalOutput
                ∧ item.position = event.ordinal := by
  have hclosing : Closing current event [] mutation.transcript := .of_empty hempty
  unfold parkRecord
  cases hget : get? current.transcript (terminalItemId record.terminalId) with
  | some existing =>
    obtain ⟨hmem, heq⟩ := get?_eq_some.mp hget
    have hkind := (hcurrent existing hmem).named
    refine ⟨none, ?_, nofun⟩
    apply hclosing.footprint.revise hmem
    . apply revises_revised
      rw [heq, ofId_terminal, Option.some.injEq] at hkind
      exact hkind
    . exact hclosing.fresh hkind (by simp)
  | none =>
    refine ⟨_, hclosing.footprint.create (creates_newItemAt hpositive (ofId_terminal _) ?_ rfl)
      (hclosing.fresh (ofId_terminal _) (by simp)), ?_⟩
    . exact numbered_of_ofId (ofId_terminal _) (by decide) (by decide) (by decide)
    intro item hitem
    cases hitem
    exact ⟨get?_eq_none.mp hget, rfl, rfl⟩

theorem projectTerminalOutput_footprint (hcurrent : current.WellFormed)
    (hpositive : 0 < event.ordinal) (record : TerminalOutputRecord)
    (hempty : mutation.transcript = [])
    : ∃ created,
        Footprint current event created
            (projectTerminalOutput current.transcript event record mutation).transcript
          ∧ ∀ item, created = some item →
              item.stableId ∉ current.transcript.keys ∧ item.body.kind = .terminalOutput
                ∧ item.position = event.ordinal := by
  have hclosing : Closing current event [] mutation.transcript := .of_empty hempty
  have hattached := hclosing.footprint.foldl (nodup_terminalReferrers _ record.terminalId)
    (fun item hitem => (mem_terminalReferrers.mp hitem).1)
    (by
      intro item hitem
      exact hclosing.fresh (hcurrent item (mem_terminalReferrers.mp hitem).1).named (by simp))
    (fun _ existing _ =>
      attachToReferrer_touches record (uniquelyMatchingRawTool current.transcript record) existing)
  unfold projectTerminalOutput
  dsimp only
  cases howner : uniquelyMatchingRawTool current.transcript record with dsimp only
  | some owner =>
    rw [howner] at hattached
    split
    . exact ⟨none, hattached.1, nofun⟩
    rename_i hnot
    refine ⟨none, ?_, nofun⟩
    obtain ⟨hmem, _, tool, htool⟩ := uniquelyMatchingRawTool_some howner
    unfold attachToOwner
    rw [htool]
    apply hattached.1.revise hmem
    . apply revises_revised
      rw [htool]
      rfl
    . intro htouched
      cases hattached.2 _ htouched with
      | inl hreferrer =>
        apply hnot
        rw [List.any_eq_true]
        obtain ⟨referrer, hreferrer, heq⟩ := List.mem_map.mp hreferrer
        exact ⟨referrer, hreferrer, decide_eq_true heq⟩
      | inr htouched => exact hclosing.fresh (hcurrent owner hmem).named (by simp) htouched
  | none =>
    rw [howner] at hattached
    split
    . exact parkRecord_footprint hcurrent hpositive hempty
    . exact ⟨none, hattached.1, nofun⟩

end Outputs

end Hel
