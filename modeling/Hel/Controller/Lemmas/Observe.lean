import Hel.Controller.Lemmas.Tool

/-!
This module contains the footprint of every observation.
-/

namespace Hel

variable {mutation : MaterializedSessionMutation} {current : MaterializedSession}
  {event : RelayEvent}
variable {item : TranscriptItem} {commandId : String} {chunk : ContentChunk}
  {created : Option TranscriptItem} {agent running : Bool}

section Created

-- A chunk without a message that neither continues a stream nor trails the last message.
def opensStream (current : MaterializedSession) (agent : Bool) (chunk : ContentChunk) : Bool :=
  chunk.messageId.isNone && (streamTarget current.transcript agent chunk).isNone
    && (trailingTarget current.transcript agent current.execution.isRunning chunk).isNone

def startsPrompt (current : MaterializedSession) (commandId : String) : Bool :=
  (current.queuedPrompts.find? (·.commandId = commandId)).any (·.kind.isPrompt)

def contestedId (current : MaterializedSession) (event : RelayEvent) : Option String :=
  match event.observation with
  | .sessionUpdate (.agentMessageChunk chunk) =>
    if opensStream current true chunk then
      some (streamItemId true (toString event.ordinal))
    else
      none
  | .sessionUpdate (.agentThoughtChunk chunk) =>
    if opensStream current false chunk then
      some (streamItemId false (toString event.ordinal))
    else
      none
  | .commandQueued commandId (.runUserShell _) _ => some (userShellItemId commandId)
  | .commandStarted commandId _ =>
    if startsPrompt current commandId then some (userItemId commandId) else none
  | .commandCompleted _ (.steered queuedCommandId) => some (userItemId queuedCommandId)
  | _ => none

theorem contestedId_of {o : RelayObservation} (hevent : event.observation = o)
    : contestedId current event = contestedId current { event with observation := o } := by
  rw [← hevent]

def steers (current : MaterializedSession) (event : RelayEvent) : Bool :=
  match event.observation with
  | .commandCompleted commandId (.steered queuedCommandId) =>
    ((current.queuedPrompts.filter (fun queued => queued.commandId ≠ commandId)).find?
      (·.commandId = queuedCommandId)).any (·.kind.isPrompt)
  | _ => true

structure Creation (current : MaterializedSession) (event : RelayEvent)
    (created : Option TranscriptItem) : Prop where
  contested : ∀ stableId, contestedId current event = some stableId →
    ∃ item, created = some item ∧ item.stableId = stableId
  fresh : ∀ item, created = some item →
    contestedId current event = some item.stableId
      ∨ item.stableId ∉ current.transcript.keys ∧ item.body.kind ≠ .user
  position : ∀ item, created = some item →
    item.position = event.ordinal ∨ item.body.kind = .tool

namespace Creation

theorem none (h : contestedId current event = .none) : Creation current event .none where
  contested := by
    intro stableId heq
    rw [h] at heq
    cases heq
  fresh := nofun
  position := nofun

theorem of_fresh (h : contestedId current event = .none)
    (hfresh : item.stableId ∉ current.transcript.keys) (hkind : item.body.kind ≠ .user)
    (hposition : item.position = event.ordinal ∨ item.body.kind = .tool)
    : Creation current event (some item) where
  contested := by
    intro stableId heq
    rw [h] at heq
    cases heq
  fresh := by
    intro other hother
    cases hother
    exact Or.inr ⟨hfresh, hkind⟩
  position := by
    intro other hother
    cases hother
    exact hposition

theorem of_contested (h : contestedId current event = some item.stableId)
    (hposition : item.position = event.ordinal) : Creation current event (some item) where
  contested := by
    intro stableId heq
    rw [h, Option.some.injEq] at heq
    exact ⟨item, rfl, heq⟩
  fresh := by
    intro other hother
    cases hother
    exact Or.inl h
  position := by
    intro other hother
    cases hother
    exact Or.inl hposition

end Creation

def Creating (current : MaterializedSession) (event : RelayEvent)
    (mutation : MaterializedSessionMutation) : Prop :=
  ∃ created, Footprint current event created mutation.transcript ∧ Creation current event created

end Created

section Simple

variable {kinds : List ItemKind}

theorem Closing.creating (h : Closing current event kinds mutation.transcript)
    (hcontested : contestedId current event = none) : Creating current event mutation :=
  ⟨none, h.footprint, .none hcontested⟩

theorem Closing.create_numbered (h : Closing current event kinds mutation.transcript)
    (hcurrent : current.WellFormed) (hnext : event.ordinal = current.appliedEventOrdinal + 1)
    (hcontested : contestedId current event = none) {stableId : String} {body : TranscriptBody}
    (kind : ItemKind) (hbody : body.kind = kind) (hid : stableId ∈ numberedIds event.ordinal)
    (hnamed : ItemKind.ofId stableId = some kind) (hkind : kind ∉ .user :: kinds)
    (hagent : body.isAgent = false)
    : Creating current event (mutation.upsert (event.newItem stableId body)) := by
  subst hbody
  rw [List.mem_cons, not_or] at hkind
  refine ⟨_, h.footprint.create
    (creates_newItemAt (by omega) hnamed (numbered_self hid) hagent)
    (h.fresh hnamed hkind.2), ?_⟩
  exact .of_fresh hcontested (fresh_of_numbered hcurrent hnext hid) hkind.1 (Or.inl rfl)

theorem Closing.pushSystem (h : Closing current event kinds mutation.transcript)
    (hcurrent : current.WellFormed) (hnext : event.ordinal = current.appliedEventOrdinal + 1)
    (hcontested : contestedId current event = none) (hkind : .system ∉ kinds) (text : String)
    : Creating current event (pushSystem event text mutation) := by
  apply h.create_numbered hcurrent hnext hcontested .system rfl (by simp [numberedIds])
    (ofId_system _) _ rfl
  rw [List.mem_cons, not_or]
  exact ⟨by decide, hkind⟩

theorem kind_of_shell (hcurrent : current.WellFormed)
    (h : KeyedList.get? current.transcript (userShellItemId commandId) = some item)
    : ∃ text, item.body = .system text := by
  obtain ⟨hmem, heq⟩ := KeyedList.get?_eq_some.mp h
  have hnamed := (hcurrent item hmem).named
  rw [heq, ofId_shell, Option.some.injEq] at hnamed
  cases hbody : item.body with
  | system text => exact ⟨text, rfl⟩
  | _ =>
    rw [hbody] at hnamed
    cases hnamed

section Shell

variable (h : Footprint current event created mutation.transcript) (hcurrent : current.WellFormed)
  (hfresh : ¬Touched mutation.transcript (userShellItemId commandId)) (changedAtMs : Int)

include h hcurrent hfresh

theorem Footprint.reviseShell
    (hget : KeyedList.get? current.transcript (userShellItemId commandId) = some item)
    (text : String)
    : Footprint current event created
        (mutation.upsert (item.revised changedAtMs (.system text))).transcript := by
  obtain ⟨hmem, heq⟩ := KeyedList.get?_eq_some.mp hget
  obtain ⟨old, hbody⟩ := kind_of_shell hcurrent hget
  apply h.revise hmem
  . apply revises_revised
    rw [hbody]
    rfl
  . show ¬Touched _ item.stableId
    rw [heq]
    exact hfresh

theorem reviseShell_footprint (text : String → String)
    : Footprint current event created
        (reviseShell current.transcript commandId changedAtMs text mutation).transcript := by
  unfold reviseShell
  cases hget : KeyedList.get? current.transcript (userShellItemId commandId) with
  | none => exact h
  | some existing =>
  obtain ⟨old, hbody⟩ := kind_of_shell hcurrent hget
  dsimp only
  rw [hbody]
  exact h.reviseShell hcurrent hfresh changedAtMs hget _

theorem replaceShell_footprint (text : String)
    : Footprint current event created
        (replaceShell current.transcript commandId changedAtMs text mutation).transcript := by
  unfold replaceShell
  cases hget : KeyedList.get? current.transcript (userShellItemId commandId) with
  | none => exact h
  | some existing =>
  exact h.reviseShell hcurrent hfresh changedAtMs hget text

end Shell

theorem transcript_withQueue (queue : List MaterializedQueuedPrompt)
    : (withQueue current queue mutation).transcript = mutation.transcript := by
  unfold withQueue
  split <;> rfl

end Simple

section Updates

theorem stableId_newStreamItem
    : (newStreamItem event agent running chunk).stableId
        = streamItemId agent (chunk.messageId.getD (toString event.ordinal)) := rfl

theorem kind_newStreamItem
    : (newStreamItem event agent running chunk).body.kind = streamKind agent := by
  cases agent <;> rfl

theorem streamCreation_creation {agent : Bool}
    (hcontested : contestedId current event = if opensStream current agent chunk then
          some (streamItemId agent (toString event.ordinal))
        else
          none) : Creation current event (streamCreation current event agent chunk) := by
  unfold streamCreation
  cases htarget : streamTarget current.transcript agent chunk with
  | some item =>
    apply Creation.none
    rw [hcontested]
    unfold opensStream
    simp [htarget]
  | none =>
  cases htrailing :
      trailingTarget current.transcript agent current.execution.isRunning chunk with
  | some item =>
    apply Creation.none
    rw [hcontested]
    unfold opensStream
    simp [htrailing]
  | none =>
    dsimp only
    cases hid : chunk.messageId with
    | none =>
      apply Creation.of_contested _ rfl
      rw [hcontested, stableId_newStreamItem, hid]
      unfold opensStream
      simp [htarget, htrailing, hid]
    | some id =>
    apply Creation.of_fresh
    . rw [hcontested]
      unfold opensStream
      simp [hid]
    . rw [stableId_newStreamItem, hid]
      unfold streamTarget at htarget
      rw [hid] at htarget
      exact KeyedList.get?_eq_none.mp htarget
    . rw [kind_newStreamItem]
      cases agent <;> decide
    . exact Or.inl rfl

theorem creates_user {atMs : Int} {content : List ContentBlock} (hpositive : 0 < event.ordinal)
    : Creates current event (event.newItemAt (userItemId commandId) atMs (.user content)) :=
  creates_newItemAt hpositive (ofId_user _)
    (numbered_of_ofId (ofId_user _) (by decide) (by decide) (by decide)) rfl

theorem closing_streams (event : RelayEvent) (hcurrent : current.WellFormed)
    (hempty : mutation.transcript = [])
    : Closing current event [.thought, .agent]
        (mutation.closeStreams current.transcript event.recordedAtMs).transcript :=
  .closeStreams hempty hcurrent

theorem projectTermination_closing (hcurrent : current.WellFormed)
    (hempty : mutation.transcript = []) (commandId : String) (command : RelayCommandKind)
    : Closing current event [.thought, .agent]
        (projectTermination current event commandId command mutation).transcript := by
  have hstreams := closing_streams event hcurrent hempty
  unfold projectTermination
  dsimp only
  split
  . split
    . exact hstreams
    . exact .of_empty hempty
  split
  . exact hstreams
  . exact .of_empty hempty

end Updates

section Observations

variable (hcurrent : current.WellFormed)
  (hnext : event.ordinal = current.appliedEventOrdinal + 1) (hempty : mutation.transcript = [])

include hcurrent hnext hempty

theorem projectPlan_creating (hcontested : contestedId current event = none) (plan : Json)
    : Creating current event (projectPlan current event plan mutation) := by
  have hclosing := closing_streams event hcurrent hempty
  unfold projectPlan
  dsimp only
  cases hplan : currentPlan current.transcript with
  | some item =>
    unfold currentPlan at hplan
    have hmem := List.mem_reverse.mp (List.mem_of_find?_eq_some hplan)
    have hkind := List.find?_some hplan
    rw [Bool.and_eq_true] at hkind
    have hbody : item.body.kind = .plan := by
      have := hkind.2
      cases hbody : item.body with
      | plan => rfl
      | _ =>
        rw [hbody] at this
        cases this
    refine ⟨none, hclosing.footprint.revise hmem (revises_revised hbody.symm) ?_,
      .none hcontested⟩
    apply hclosing.fresh (hcurrent item hmem).named
    rw [hbody]
    decide
  | none =>
    exact hclosing.create_numbered hcurrent hnext hcontested .plan rfl (by simp [numberedIds])
      (ofId_plan _) (by decide) rfl

theorem projectSessionUpdate_creating (codec : RelayCodec) {update : SessionUpdate}
    (hevent : event.observation = .sessionUpdate update)
    : ∃ mutation', projectSessionUpdate codec current event mutation update = .ok mutation'
        ∧ Creating current event mutation' := by
  have hclosing : Closing current event [] mutation.transcript := .of_empty hempty
  have hpositive : 0 < event.ordinal := by omega
  cases update with
  | agentMessageChunk chunk =>
    obtain ⟨mutation', hok, hfootprint⟩ := pushStreamChunk_footprint hcurrent hpositive
      true chunk (hclosing.closeStreamKind hcurrent false (by simp))
    exact ⟨mutation', hok, _, hfootprint, streamCreation_creation (contestedId_of hevent)⟩
  | agentThoughtChunk chunk =>
    obtain ⟨mutation', hok, hfootprint⟩ := pushStreamChunk_footprint hcurrent hpositive
      false chunk (hclosing.closeStreamKind hcurrent true (by simp))
    exact ⟨mutation', hok, _, hfootprint, streamCreation_creation (contestedId_of hevent)⟩
  | toolCall call =>
    obtain ⟨mutation', created, hok, hfootprint, hcreated⟩ :=
      projectToolCall_footprint hcurrent hpositive call hempty
    have hcontested : contestedId current event = none := contestedId_of hevent
    refine ⟨mutation', hok, created, hfootprint, ?_⟩
    cases created with
    | none => exact .none hcontested
    | some item =>
    obtain ⟨hfresh, _, heq⟩ := hcreated item rfl
    apply Creation.of_fresh hcontested hfresh
    . rw [heq]
      show ItemKind.tool ≠ .user
      decide
    . rw [heq]
      exact Or.inr rfl
  | toolCallUpdate toolCallId fields =>
    obtain ⟨mutation', hok, hfootprint⟩ :=
      projectToolCallUpdate_footprint codec hcurrent toolCallId fields hempty
    exact ⟨mutation', hok, none, hfootprint, .none (contestedId_of hevent)⟩
  | plan plan =>
    exact ⟨_, rfl, projectPlan_creating hcurrent hnext hempty (contestedId_of hevent) plan⟩
  | sessionInfoUpdate info =>
    have hcontested : contestedId current event = none := contestedId_of hevent
    unfold projectSessionUpdate
    dsimp only
    cases info.title with
    | undefined => exact ⟨_, rfl, hclosing.creating hcontested⟩
    | null | value title => exact ⟨_, rfl, none, hclosing.footprint, .none hcontested⟩
  | userMessageChunk chunk | availableCommandsUpdate commands | usageUpdate usage
  | configOptionUpdate options | currentModeUpdate mode =>
    exact ⟨_, rfl, none, hclosing.footprint, .none (contestedId_of hevent)⟩

theorem projectCommandQueued_creating (contentText : List ContentBlock → String)
    {command : RelayCommand} {createdAtMs : Int}
    (hevent : event.observation = .commandQueued commandId command createdAtMs)
    : Creating current event
        (projectCommandQueued contentText current event commandId createdAtMs mutation command) := by
  have hclosing : Closing current event [] mutation.transcript := .of_empty hempty
  cases command with
  | runUserShell command =>
    refine ⟨_, hclosing.footprint.create (creates_newItemAt (by omega) (ofId_shell _) ?_ rfl)
      (hclosing.fresh (ofId_shell _) (by simp)), .of_contested (contestedId_of hevent) rfl⟩
    intro n _
    exact userShellItemId_not_mem_numberedIds _ _
  | close barrierCommandId expected =>
    have hstreams := closing_streams event hcurrent hempty
    exact ⟨none, hstreams.footprint, .none (contestedId_of hevent)⟩
  | _ =>
    exact ⟨none, hclosing.footprint, .none (contestedId_of hevent)⟩

theorem projectCommandStarted_creating {startedAtMs : Int}
    (hevent : event.observation = .commandStarted commandId startedAtMs)
    : Creating current event
        (projectCommandStarted current event commandId startedAtMs mutation) := by
  have hclosing : Closing current event [] mutation.transcript := .of_empty hempty
  have hcontested : contestedId current event
      = if startsPrompt current commandId then some (userItemId commandId) else none :=
    contestedId_of hevent
  unfold projectCommandStarted projectStart
  unfold startsPrompt at hcontested
  cases hfind : current.queuedPrompts.find? (·.commandId = commandId) with
  | none =>
    rw [hfind] at hcontested
    refine ⟨none, reviseShell_footprint hclosing.footprint hcurrent ?_ _ _, .none hcontested⟩
    exact hclosing.fresh (ofId_shell _) (by simp)
  | some entry =>
  rw [hfind, Option.any_some] at hcontested
  dsimp only
  split
  next hprompt =>
    rw [if_pos hprompt] at hcontested
    have hstart : Closing current event [.thought, .agent]
        (MaterializedSessionMutation.closeStreams current.transcript event.recordedAtMs
          { mutation with
            queuedPrompts := some (current.queuedPrompts.eraseP (·.commandId = commandId)) }).transcript :=
      .closeStreams hempty hcurrent
    have hfresh := hstart.fresh (ofId_user commandId) (by decide)
    refine ⟨_, reviseShell_footprint
      (hstart.footprint.create (creates_user (by omega)) hfresh) hcurrent ?_ _ _,
      .of_contested hcontested rfl⟩
    intro htouched
    cases touched_upsertInto hfresh htouched with
    | inl heq =>
      have hkind := ofId_shell commandId
      rw [heq] at hkind
      rw [show (event.newItemAt (userItemId commandId) startedAtMs
        (.user entry.content)).stableId = userItemId commandId from rfl, ofId_user] at hkind
      cases hkind
    | inr htouched => exact hstart.fresh (ofId_shell _) (by decide) htouched
  next hprompt =>
    rw [if_neg hprompt] at hcontested
    have hqueue : Closing current event []
        ({ mutation with
          queuedPrompts := some (current.queuedPrompts.eraseP (·.commandId = commandId)) } :
            MaterializedSessionMutation).transcript :=
      .of_empty hempty
    refine ⟨none, reviseShell_footprint hqueue.footprint hcurrent ?_ _ _, .none hcontested⟩
    exact hqueue.fresh (ofId_shell _) (by simp)

theorem projectSteered_creating {commandId queuedCommandId : String}
    (hevent : event.observation = .commandCompleted commandId (.steered queuedCommandId))
    {queue : List MaterializedQueuedPrompt}
    (hsteers : (queue.find? (·.commandId = queuedCommandId)).any (·.kind.isPrompt))
    : ∃ mutation', projectSteered current event queue queuedCommandId mutation = .ok mutation'
        ∧ Creating current event mutation' := by
  unfold projectSteered
  cases hfind : queue.find? (·.commandId = queuedCommandId) with
  | none =>
    rw [hfind] at hsteers
    cases hsteers
  | some entry =>
  rw [hfind, Option.any_some] at hsteers
  dsimp only
  rw [hsteers]
  refine ⟨_, rfl, ?_⟩
  have hstreams := closing_streams event hcurrent hempty
  unfold Creating
  rw [transcript_withQueue]
  exact ⟨_, hstreams.footprint.create (creates_user (by omega))
    (hstreams.fresh (ofId_user queuedCommandId) (by decide)),
    .of_contested (contestedId_of hevent) rfl⟩

theorem projectCommandCompleted_creating {outcome : RelayCommandOutcome}
    (hevent : event.observation = .commandCompleted commandId outcome)
    (hsteers : steers current event)
    : ∃ mutation',
        projectCommandCompleted current event commandId mutation outcome = .ok mutation'
          ∧ Creating current event mutation' := by
  have hclosing : Closing current event [] mutation.transcript := .of_empty hempty
  have hstreams := closing_streams event hcurrent hempty
  cases outcome with
  | steered queuedCommandId =>
    unfold steers at hsteers
    rw [hevent] at hsteers
    exact projectSteered_creating hcurrent hnext hempty hevent hsteers
  | prompt stopReason | closed =>
    refine ⟨_, rfl, ?_⟩
    unfold Creating
    rw [transcript_withQueue]
    exact ⟨none, hstreams.footprint, .none (contestedId_of hevent)⟩
  | userShell result =>
    refine ⟨_, rfl, ?_⟩
    unfold Creating
    rw [transcript_withQueue]
    refine ⟨none, replaceShell_footprint hclosing.footprint hcurrent ?_ _ _,
      .none (contestedId_of hevent)⟩
    exact hclosing.fresh (ofId_shell _) (by simp)
  | _ =>
    refine ⟨_, rfl, ?_⟩
    unfold Creating
    rw [transcript_withQueue]
    exact ⟨none, hclosing.footprint, .none (contestedId_of hevent)⟩

theorem projectCommandTerminated_creating (hcontested : contestedId current event = none)
    (commandId : String) (command : RelayCommandKind) (message : String)
    : Creating current event
        (projectCommandTerminated current event commandId command message mutation) := by
  unfold projectCommandTerminated
  dsimp only
  have hclosing : Closing current event [.thought, .agent]
      (projectTermination current event commandId command (withQueue current
        (current.queuedPrompts.filter (fun queued => queued.commandId ≠ commandId))
        mutation)).transcript :=
    projectTermination_closing hcurrent ((transcript_withQueue _).trans hempty) commandId command
  split
  . refine ⟨none, reviseShell_footprint hclosing.footprint hcurrent ?_ _ _, .none hcontested⟩
    exact hclosing.fresh (ofId_shell _) (by decide)
  . exact hclosing.pushSystem hcurrent hnext hcontested (by decide) _

theorem projectElicitationRequested_creating (hcontested : contestedId current event = none)
    (request : ElicitationRequest)
    : Creating current event (projectElicitationRequested current event request mutation) := by
  unfold projectElicitationRequested
  dsimp only
  split
  . refine Closing.create_numbered (.closeStreams ?_ hcurrent) hcurrent hnext hcontested
      .planProposal rfl ?_ (ofId_planProposal _) (by decide) rfl
    . exact hempty
    . simp [numberedIds]
  refine ⟨none, ?_, .none hcontested⟩
  show Footprint current event none mutation.transcript
  rw [hempty]
  exact .nil

theorem projectNotice_creating (hcontested : contestedId current event = none) (message : String)
    : Creating current event (projectNotice current event message mutation) := by
  have hclosing : Closing current event [] mutation.transcript := .of_empty hempty
  unfold projectNotice
  cases hcommand : event.commandId with dsimp only
  | none =>
    split
    . exact hclosing.creating hcontested
    . exact hclosing.pushSystem hcurrent hnext hcontested (by simp) message
  | some commandId =>
    split
    . exact hclosing.creating hcontested
    rename_i hnone
    refine ⟨_, hclosing.footprint.create
      (creates_newItemAt (by omega) (ofId_notice _) ?_ rfl)
      (hclosing.fresh (ofId_notice _) (by simp)), ?_⟩
    . intro n _
      exact noticeItemId_not_mem_numberedIds _ _
    . apply Creation.of_fresh hcontested _ (fun h => by cases h) (Or.inl rfl)
      rw [Bool.not_eq_true, Option.isSome_eq_false_iff, Option.isNone_iff_eq_none] at hnone
      exact KeyedList.get?_eq_none.mp hnone

theorem projectObservation_creating (codec : RelayCodec)
    (contentText : List ContentBlock → String) (hsteers : steers current event)
    : ∃ mutation',
        projectObservation codec contentText current event mutation event.observation = .ok mutation'
          ∧ Creating current event mutation' := by
  have hclosing : Closing current event [] mutation.transcript := .of_empty hempty
  have hstreams := closing_streams event hcurrent hempty
  cases hevent : event.observation with
  | sessionUpdate update => exact projectSessionUpdate_creating hcurrent hnext hempty codec hevent
  | commandCompleted commandId outcome =>
    exact projectCommandCompleted_creating hcurrent hnext hempty hevent hsteers
  | commandQueued commandId command createdAtMs =>
    exact ⟨_, rfl, projectCommandQueued_creating hcurrent hnext hempty contentText hevent⟩
  | commandStarted commandId startedAtMs =>
    exact ⟨_, rfl, projectCommandStarted_creating hcurrent hnext hempty hevent⟩
  | commandRejected commandId command message | commandInterrupted commandId command message =>
    exact ⟨_, rfl, projectCommandTerminated_creating hcurrent hnext hempty (contestedId_of hevent) _ _ _⟩
  | elicitationRequested request =>
    exact ⟨_, rfl, projectElicitationRequested_creating hcurrent hnext hempty (contestedId_of hevent) _⟩
  | notice message =>
    exact ⟨_, rfl, projectNotice_creating hcurrent hnext hempty (contestedId_of hevent) _⟩
  | sessionOpened nativeSessionId resumed =>
    have hcontested : contestedId current event = none := contestedId_of hevent
    cases resumed with
    | true => exact ⟨_, rfl, none, hclosing.footprint, .none hcontested⟩
    | false =>
    have hpending : Closing current event []
        ({ mutation with pendingElicitations := some [] } :
          MaterializedSessionMutation).transcript :=
      hclosing
    exact ⟨_, rfl, hpending.pushSystem hcurrent hnext hcontested (by simp) _⟩
  | userShellOutput commandId command stdout stderr stdoutTruncated stderrTruncated =>
    refine ⟨_, rfl, none, replaceShell_footprint hclosing.footprint hcurrent ?_ _ _,
      .none (contestedId_of hevent)⟩
    exact hclosing.fresh (ofId_shell _) (by simp)
  | terminalOutput terminalId output truncated exitCode signal =>
    have hpositive : 0 < event.ordinal := by omega
    obtain ⟨created, hfootprint, hcreated⟩ :=
      projectTerminalOutput_footprint hcurrent hpositive
        ⟨terminalId, output, truncated, exitCode, signal⟩ hempty
    refine ⟨_, rfl, created, hfootprint, ?_⟩
    have hcontested : contestedId current event = none := contestedId_of hevent
    cases created with
    | none => exact .none hcontested
    | some item =>
    obtain ⟨hfresh, hkind, hposition⟩ := hcreated item rfl
    apply Creation.of_fresh hcontested hfresh _ (Or.inl hposition)
    rw [hkind]
    decide
  | sessionRestarted =>
    have hcontested : contestedId current event = none := contestedId_of hevent
    exact ⟨_, rfl, hclosing.create_numbered hcurrent hnext hcontested .system rfl
      (by simp [numberedIds]) (ofId_sessionRestart _) (by decide) rfl⟩
  | permissionAutoApproved optionId optionName | warning message =>
    exact ⟨_, rfl, hclosing.pushSystem hcurrent hnext (contestedId_of hevent) (by simp) _⟩
  | closing | closed =>
    exact ⟨_, rfl, none, hstreams.footprint, .none (contestedId_of hevent)⟩
  | agentInitialized | sessionConfigured | sessionModesConfigured | elicitationResolved
  | elicitationsCleared | configurationUpdated | checkpointReady =>
    exact ⟨_, rfl, none, hclosing.footprint, .none (contestedId_of hevent)⟩

end Observations

theorem steers_of_ok {codec : RelayCodec} {contentText : List ContentBlock → String}
    {mutation' : MaterializedSessionMutation}
    (h : projectObservation codec contentText current event mutation event.observation = .ok mutation')
    : steers current event := by
  unfold steers
  split
  next commandId queuedCommandId hevent =>
    rw [hevent] at h
    unfold projectObservation projectCommandCompleted projectSteered at h
    dsimp only at h
    split at h
    next => cases h
    rename_i entry hfind
    rw [hfind, Option.any_some]
    split at h
    next => cases h
    next hprompt => simpa using hprompt
  next => rfl

end Hel
