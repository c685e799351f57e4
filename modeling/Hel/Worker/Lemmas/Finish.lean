import Hel.Worker.Lemmas.Collect
import Hel.Worker.Lemmas.Desk
import Hel.Worker.Lemmas.Guards

/-!
This module contains the specifications of what a relay journals on its own account.
-/

namespace Hel

variable {codec : RelayCodec} {origin : Origin} {Accepts : RelaySnapshot → RelayCommand → Prop}
  {sessionId : String} {w w' : World} {id : String} {s : RelaySnapshot} {commandId : Option String}
  {event : RelayEvent} {command : RelayCommand}

section Clamp

variable {o o' : RelayObservation}

theorem clampObservation_of_le (h : codec.observationLen o ≤ RELAY_OBSERVATION_BYTE_BUDGET)
    : clampObservation codec o RELAY_OBSERVATION_BYTE_BUDGET = o := by
  unfold clampObservation
  simp only [h, ↓reduceIte]

theorem clampObservation_cases (h : o.shortenable)
    : clampObservation codec o RELAY_OBSERVATION_BYTE_BUDGET = o ∨
        o.Shortened (clampObservation codec o RELAY_OBSERVATION_BYTE_BUDGET) := by
  unfold clampObservation
  split
  . exact Or.inl rfl
  . exact Or.inr (codec.shortened _ o h)

theorem admissible_of_fromAgent (h : o.fromAgent) : s.Admissible o := by
  cases o with
  | commandQueued | commandStarted | commandCompleted | closing | closed => cases h
  | _ => trivial

theorem RelayObservation.Shortened.admissible (h : o.Shortened o') (hadm : s.Admissible o)
    : s.Admissible o' := by
  cases h with
  | agent _ hagent => exact admissible_of_fromAgent hagent
  | dropped => trivial
  | completed => exact hadm
  | rejected | interrupted => trivial

variable {Accepts : RelaySnapshot → RelayCommand → Prop}

theorem permitted_of_shortenable {origin : Origin} {c : Chronicle} (h : o.shortenable)
    : Permitted codec origin Accepts c o := by
  cases o with
  | commandQueued => cases h
  | _ => trivial

theorem RelayObservation.Shortened.permitted {origin : Origin} {c : Chronicle} (h : o.Shortened o')
    : Permitted codec origin Accepts c o' := by
  cases h with
  | agent _ hagent =>
    cases o' with
    | commandQueued => cases hagent
    | _ => trivial
  | _ => trivial

end Clamp

section Record

variable {o : RelayObservation}

theorem appendRelayEvent_shortenable (h : Live codec origin sessionId w) (ho : o.shortenable)
    (hadm : w.held.Admissible o)
    : Does codec origin Accepts sessionId
        (Accommodates codec commandId (clampObservation codec o RELAY_OBSERVATION_BYTE_BUDGET) w)
        (fun ordinal w' => ∃ event, ordinal = event.ordinal ∧
          Journaled codec commandId (clampObservation codec o RELAY_OBSERVATION_BYTE_BUDGET)
            w.chronicle w'.chronicle event)
        w (appendRelayEvent codec commandId o) := by
  cases clampObservation_cases ho with
  | inl heq =>
    apply appendRelayEvent_does h rfl
    . rw [heq]
      exact hadm
    . rw [heq]
      exact permitted_of_shortenable ho
  | inr hshort => exact appendRelayEvent_does h rfl (hshort.admissible hadm) hshort.permitted

theorem Live.isRelayDigest (h : Live codec origin sessionId w)
    : isRelayDigest w.held.latestDigest :=
  h.valid.frontiers.latest.isRelayDigest h.valid.recorded

theorem Live.accommodates (h : Live codec origin sessionId w) (hcalm : w.Calm)
    (hroom : Room codec 1 w.held) (hid : isIdentifier id)
    (hlen : codec.observationLen o ≤ RELAY_OBSERVATION_BYTE_BUDGET) (hsettling : Settling w.held o)
    (happly : ∀ ordinal digest, ∃ next, w.held.applyObservation ordinal digest o = .ok next)
    : Accommodates codec (some id) o w := by
  have hid' : ∀ id' ∈ some id, isIdentifier id' := by simpa using hid
  refine ⟨hcalm, hroom.ordinal_lt, hid', ?_⟩
  intro recordedAtMs
  obtain ⟨next, hnext⟩ := happly (w.held.latestOrdinal + 1)
    (codec.digestV2 (w.held.latestOrdinal + 1) recordedAtMs (some id) o)
  have hevent := eventLen_stampEvent recordedAtMs hroom.ordinal_lt hid' hlen
  have hstamp := applyRelayEvent_stampEvent h.isRelayDigest hroom.ordinal_lt hevent hnext
  exact ⟨_, hstamp, (hroom.step (.record (genuine_stampEvent hevent) hsettling hstamp)).fits⟩

theorem Journaled.room {c c' : Chronicle} (h : Journaled codec commandId o c c' event)
    (hsettling : Settling c.held o) {n : Nat} (hroom : Room codec (n + 1) c.held)
    : Room codec n c'.held := by
  rw [← h.observation_eq] at hsettling
  exact hroom.step (.record h.genuine hsettling h.apply_eq)

theorem Journaled.held_eq {c c' : Chronicle} (h : Journaled codec commandId o c c' event)
    : ∃ next, c.held.applyObservation event.ordinal event.digest o = .ok next ∧
        c'.held = { next with latestOrdinal := event.ordinal, latestDigest := event.digest } := by
  obtain ⟨_, next, hnext, heq⟩ := applyRelayEvent_eq_ok h.apply_eq
  rw [h.observation_eq] at hnext
  exact ⟨next, hnext, heq⟩

end Record

section Start

variable {e : LedgerEntry}

theorem RelaySnapshot.Sound.find?_queued (hs : s.Sound) (hstart : s.ledger.Startable id e)
    (hqueue : e.command.isQueueEntry)
    : ∃ queued, s.queuedPrompts.find? (·.commandId = id) = some queued ∧
        queued.payload.command = e.command := by
  have hmem := hs.invariant.queue_complete id e hstart.entry hstart.queued hqueue
  rw [List.mem_map] at hmem
  obtain ⟨q, hq, rfl⟩ := hmem
  have hq' : q ∈ s.queuedPrompts.map (fun queued => (queued.commandId, queued.payload.command)) := hq
  rw [List.mem_map] at hq'
  obtain ⟨queued, hqueued, rfl⟩ := hq'
  cases hfind : s.queuedPrompts.find? (·.commandId = queued.commandId) with
  | none =>
    rw [List.find?_eq_none] at hfind
    exact absurd (hfind queued hqueued) (by simp)
  | some found =>
  refine ⟨found, rfl, ?_⟩
  have hid := List.find?_some hfind
  simp only [decide_eq_true_eq] at hid
  have hfound : (found.commandId, found.payload.command) ∈ s.ledger.queue := by
    show _ ∈ s.queuedPrompts.map _
    rw [List.mem_map]
    exact ⟨found, List.mem_of_find?_eq_some hfind, rfl⟩
  obtain ⟨_, n, hn⟩ := hs.invariant.queue_sound _ hfound
  have hentry := hstart.entry
  dsimp only at hn hentry
  rw [hid, hentry, Option.some.injEq] at hn
  rw [hn]

theorem RelaySnapshot.Sound.startCommand_eq_ok (hs : s.Sound) (hstart : s.ledger.Startable id e)
    (hshell : e.command.kind ≠ .runUserShell) (startedAtMs : Int)
    : ∃ next, s.startCommand id startedAtMs = .ok next := by
  obtain ⟨dispatch, hd, hcommand, _⟩ := dispatch_of_entry hstart.entry
  unfold startCommand
  simp only [hd]
  have hqueued : (s.setDispatchState id .pending).queuedPrompts = s.queuedPrompts := rfl
  cases hc : dispatch.command with
  | prompt blocks =>
    obtain ⟨queued, hfind, hpayload⟩ := hs.find?_queued hstart (by rw [← hcommand, hc]; rfl)
    unfold startPrompt
    rw [hqueued, hfind]
    rw [← hcommand, hc] at hpayload
    cases hp : queued.payload with
    | prompt blocks' =>
      simp only [hp]
      exact ⟨_, rfl⟩
    | setConfig key value => simp [hp, StoredQueuedRelayPayload.command] at hpayload
  | setConfig key value =>
    obtain ⟨queued, hfind, hpayload⟩ := hs.find?_queued hstart (by rw [← hcommand, hc]; rfl)
    unfold startSetConfig
    rw [hqueued, hfind]
    simp
  | beginCheckpoint reason =>
    unfold startBarrier
    have hnone : (s.setDispatchState id .pending).checkpointBarrier = none :=
      (hstart.barrier (by rw [← hcommand, hc]; rfl)).1
    rw [hnone]
    simp
  | runUserShell shell =>
    rw [← hcommand, hc] at hshell
    exact absurd rfl hshell
  | _ => simp

theorem startQueued_does (h : Live codec origin sessionId w) (hstart : w.held.ledger.Startable id e)
    : Does codec origin Accepts sessionId
        (Room codec 1 w.held ∧ ∀ startedAtMs, ∃ next, w.held.startCommand id startedAtMs = .ok next)
        (fun _ w' => ∃ startedAtMs event, Journaled codec (some id) (.commandStarted id startedAtMs)
          w.chronicle w'.chronicle event)
        w (startQueued codec id) := by
  obtain ⟨dispatch, hd, _, _⟩ := RelaySnapshot.dispatch_of_entry hstart.entry
  have hid := h.valid.sound.aligned.identifier_of_dispatch hd
  unfold startQueued
  apply does_epochMillis_bind h
  intro startedAtMs w₁ hadvanced hchronicle _
  have hfits := codec.compact_fits (.commandStarted id startedAtMs) hid
  have hheld : w₁.held = w.held := congrArg Chronicle.held hchronicle
  have hadm : w₁.held.Admissible (.commandStarted id startedAtMs) := by
    rw [hheld]
    exact ⟨e, hstart⟩
  have hdoes : Does codec origin Accepts sessionId
      (Accommodates codec (some id) (.commandStarted id startedAtMs) w₁) _ w₁ _ :=
    appendRelayEvent_does hadvanced.live (clampObservation_of_le hfits) hadm trivial
  refine hdoes.mono ?_ ?_
  . intro hcalm ⟨hroom, hok⟩
    apply hadvanced.live.accommodates hcalm (by rw [hheld]; exact hroom) hid hfits
    . show (w₁.held.dispatches.get? id).isSome
      rw [hheld, hd]
      rfl
    intro ordinal digest
    rw [hheld]
    exact hok startedAtMs
  . intro _ w' _ ⟨event, _, hjournaled⟩
    rw [hchronicle] at hjournaled
    exact ⟨startedAtMs, event, hjournaled⟩

theorem settling_commandStarted (h : s.ledger.Startable id e) (startedAtMs : Int)
    : Settling s (.commandStarted id startedAtMs) := by
  obtain ⟨dispatch, hd, _, _⟩ := RelaySnapshot.dispatch_of_entry h.entry
  show (s.dispatches.get? id).isSome
  rw [hd]
  rfl

theorem promoteNextQueuedCommand_does (h : Live codec origin sessionId w)
    : Does codec origin Accepts sessionId (Room codec 1 w.held)
        (fun ordinal w' => ordinal = none ∧ w'.chronicle = w.chronicle ∨
          ∃ id e startedAtMs event, w.held.ledger.Startable id e ∧ e.command.isQueueEntry ∧
            Journaled codec (some id) (.commandStarted id startedAtMs) w.chronicle w'.chronicle event)
        w (promoteNextQueuedCommand codec) := by
  unfold promoteNextQueuedCommand
  apply does_get_bind
  rw [h.snapshot]
  cases hpromotable : promotable w.held with
  | none => exact does_pure h (Or.inl ⟨rfl, rfl⟩)
  | some id =>
  obtain ⟨e, hstart, hqueue⟩ := h.valid.sound.startable_of_promotable hpromotable
  refine does_bind ((startQueued_does h hstart).pre ?_) ?_
  . intro _ hroom
    refine ⟨hroom, h.valid.sound.startCommand_eq_ok hstart ?_⟩
    cases hc : e.command <;> simp_all [RelayCommand.kind, RelayCommand.isQueueEntry]
  rintro _ w' hadvanced ⟨startedAtMs, event, hjournaled⟩
  exact does_pure hadvanced.live
    (Or.inr ⟨id, e, startedAtMs, event, hstart, hqueue, hjournaled⟩)

end Start

structure Undisturbed (s s' : RelaySnapshot) (id : String) : Prop where
  others : ∀ other, other ≠ id → s'.dispatches.get? other = s.dispatches.get? other
  desk : s'.desk = s.desk

theorem Undisturbed.refl (s : RelaySnapshot) (id : String) : Undisturbed s s id :=
  ⟨fun _ _ => rfl, rfl⟩

theorem Undisturbed.trans {s s' s'' : RelaySnapshot} {id : String} (h : Undisturbed s s' id)
    (h' : Undisturbed s' s'' id) : Undisturbed s s'' id :=
  ⟨fun other hne => (h'.others other hne).trans (h.others other hne), h'.desk.trans h.desk⟩

structure Finished (s s' : RelaySnapshot) (id : String) (command : RelayCommand) : Prop where
  desk : s.desk.finish command = some s'.desk
  done : ∀ dispatch, s'.dispatches.get? id = some dispatch → dispatch.state.isTerminal
  locals : ∀ other dispatch, other ≠ id → s.dispatches.get? other = some dispatch →
    dispatch.command.isRelayLocal → dispatch.state.isTerminal = false →
    s'.dispatches.get? other = some dispatch

section Finish

variable {dispatch : RelayDispatchRecord}

theorem startCommand_local (hd : s.dispatches.get? id = some dispatch)
    (hlocal : dispatch.command.isRelayLocal) (startedAtMs : Int)
    : s.startCommand id startedAtMs = .ok (s.setDispatchState id .pending) := by
  unfold RelaySnapshot.startCommand
  rw [hd]
  cases hc : dispatch.command <;> simp_all [RelayCommand.isRelayLocal]

theorem relayLocalOutcome_fits (hs : s.Sound) (hfits : Fits codec s) (hid : isIdentifier id)
    (hlocal : command.isRelayLocal)
    : codec.observationLen (.commandCompleted id (relayLocalOutcome s command))
        ≤ RELAY_OBSERVATION_BYTE_BUDGET := by
  have hcompact : ∀ outcome, (RelayObservation.commandCompleted id outcome).compact →
      codec.observationLen (.commandCompleted id outcome) ≤ RELAY_OBSERVATION_BYTE_BUDGET :=
    fun outcome => codec.compact_fits (.commandCompleted id outcome)
  have hqueue : ∀ removed : List String, removed.Sublist (s.queuedPrompts.map (·.commandId)) →
      codec.observationLen (.commandCompleted id (.queueChanged removed))
        ≤ RELAY_OBSERVATION_BYTE_BUDGET := by
    intro removed hsublist
    apply codec.queueChanged_fits s id removed hid hsublist _ hfits.operational
    intro other hmem
    obtain ⟨dispatch, hd, _⟩ := hs.queued_of_mem (hsublist.subset hmem)
    exact hs.aligned.identifier_of_dispatch hd
  cases command with
  | removeQueuedPrompt target =>
    apply hqueue
    split
    next hany =>
      rw [List.singleton_sublist, List.mem_map]
      simpa using hany
    next => exact List.nil_sublist _
  | clearQueuedPrompts => exact hqueue _ (List.Sublist.refl _)
  | completeCheckpoint _ | releaseCheckpoint _ | advanceRecoveryFloor _ | recordNotice _ =>
    exact hcompact _ (by simp [RelayObservation.compact, hid, relayLocalOutcome])
  | _ => cases hlocal

theorem completeCheckpoint_fits (hid : isIdentifier id) (hcomplete : command.isCompleteCheckpoint)
    : codec.observationLen (.commandCompleted id (relayLocalOutcome s command))
        ≤ RELAY_OBSERVATION_BYTE_BUDGET := by
  cases command with
  | completeCheckpoint _ =>
    apply codec.compact_fits
    simp [RelayObservation.compact, hid, relayLocalOutcome]
  | _ => cases hcomplete

theorem Finished.prune {s s' : RelaySnapshot} (h : Finished s s' id command) (ha : s'.Aligned)
    : Finished s (prune s') id command := by
  obtain ⟨handled, dispatches, heq, hback, hkept⟩ := prune_frame ha
  rw [heq]
  constructor
  . exact h.desk
  . intro dispatch hd
    exact h.done dispatch (hback id dispatch hd)
  . intro other dispatch hne hother hlocal hopen
    exact hkept other dispatch (h.locals other dispatch hne hother hlocal hopen) hopen

theorem Finished.of_undisturbed {s s' s'' : RelaySnapshot} (hsame : Undisturbed s s' id)
    (h : Finished s' s'' id command) : Finished s s'' id command := by
  constructor
  . rw [← hsame.desk]
    exact h.desk
  . exact h.done
  intro other dispatch hne hother hlocal hopen
  apply h.locals other dispatch hne _ hlocal hopen
  rw [hsame.others other hne]
  exact hother

structure Finishes (codec : RelayCodec) (s s' : RelaySnapshot) (id : String)
    (dispatch : RelayDispatchRecord) : Prop where
  room : ∀ n, Room codec (n + 4) s → Room codec n s'
  finished : dispatch.state.isTerminal = false →
    dispatch.command.isCompleteCheckpoint ∨ Room codec 4 s → Finished s s' id dispatch.command

section

variable (h : Live codec origin sessionId w) (hd : w.held.dispatches.get? id = some dispatch)
  (hlocal : dispatch.command.isRelayLocal)

include h

theorem Live.readyDigest
    : ∀ n, w.held.checkpointReadyThrough = some n → w.held.checkpointReadyDigest.isSome := by
  intro n hn
  obtain ⟨_, d, hd, _⟩ := h.valid.frontiers.ready n hn
  have hd' : w.held.checkpointReadyDigest = some d := hd
  rw [hd']
  rfl

include hd

theorem announceNotice_does
    : Does codec origin Accepts sessionId (Room codec 1 w.held)
        (fun _ w' => Undisturbed w.held w'.held id ∧ w'.held.dispatches.get? id = some dispatch ∧
          ∀ n, Room codec (n + 1) w.held → Room codec n w'.held)
        w (announceNotice codec id dispatch.command) := by
  have hid := h.valid.sound.aligned.identifier_of_dispatch hd
  have hsame : Undisturbed w.held w.held id ∧ w.held.dispatches.get? id = some dispatch ∧
      ∀ n, Room codec (n + 1) w.held → Room codec n w.held :=
    ⟨.refl _ _, hd, fun _ hroom => hroom.pred⟩
  cases hc : dispatch.command with
  | recordNotice text =>
    have hbounded := h.valid.bounded id dispatch hd
    rw [hc] at hbounded
    have hfits := codec.notice_fits text (hbounded (Or.inr rfl))
    have hsettling : Settling w.held (.notice text) := ⟨id, dispatch, hd, hc⟩
    refine does_bind ((appendRelayEvent_does h (clampObservation_of_le hfits) trivial trivial).pre ?_) ?_
    . intro hcalm hroom
      exact h.accommodates hcalm hroom hid hfits hsettling (fun _ _ => ⟨w.held, rfl⟩)
    intro _ w' hadvanced ⟨event, _, hjournaled⟩
    apply does_pure hadvanced.live
    obtain ⟨next, hnext, heq⟩ := hjournaled.held_eq
    simp only [RelaySnapshot.applyObservation, Except.ok.injEq] at hnext
    subst hnext
    have heq' : w'.held
        = { w.held with latestOrdinal := event.ordinal, latestDigest := event.digest } := heq
    refine ⟨⟨?_, ?_⟩, ?_, fun n hroom => hjournaled.room hsettling hroom⟩
    . intro other _
      rw [heq']
    . rw [heq']
      rfl
    . rw [heq']
      exact hd
  | _ => exact does_pure h hsame

include hlocal

theorem startIfQueued_does (hopen : dispatch.state.isTerminal = false)
    : Does codec origin Accepts sessionId (Room codec 1 w.held)
        (fun _ w' => Undisturbed w.held w'.held id ∧
          (∃ dispatch', w'.held.dispatches.get? id = some dispatch' ∧
            dispatch'.command = dispatch.command ∧ dispatch'.state.inProgress) ∧
          ∀ n, Room codec (n + 1) w.held → Room codec n w'.held)
        w (startIfQueued codec id dispatch.state) := by
  unfold startIfQueued
  split
  next hqueued =>
    obtain ⟨e, hstart, _⟩ := h.valid.sound.startable_of_isRelayLocal hd hqueued hlocal
    have hok := startCommand_local hd hlocal
    refine does_bind ((startQueued_does h hstart).pre ?_) ?_
    . intro _ hroom
      exact ⟨hroom, fun startedAtMs => ⟨_, hok startedAtMs⟩⟩
    rintro _ w' hadvanced ⟨startedAtMs, event, hjournaled⟩
    apply does_pure hadvanced.live
    obtain ⟨next, hnext, heq⟩ := hjournaled.held_eq
    have hnext' : w.held.startCommand id startedAtMs = .ok next := hnext
    cases (hok startedAtMs).symm.trans hnext'
    have hdispatches : w'.held.dispatches = (w.held.setDispatchState id .pending).dispatches := by
      show w'.chronicle.held.dispatches = _
      rw [heq]
    have hdesk : w'.held.desk = w.held.desk := by
      show w'.chronicle.held.desk = _
      rw [heq]
      rfl
    refine ⟨⟨?_, hdesk⟩, ⟨{ dispatch with state := .pending }, ?_, rfl, rfl⟩, ?_⟩
    . intro other hne
      rw [hdispatches, RelaySnapshot.get?_dispatches_setDispatchState]
      simp only [hne, ↓reduceIte]
    . rw [hdispatches, RelaySnapshot.get?_dispatches_setDispatchState, hd]
      simp
    . intro n hroom
      exact hjournaled.room (settling_commandStarted hstart startedAtMs) hroom
  next hqueued =>
    refine does_pure h ⟨.refl _ _, ⟨dispatch, hd, rfl, ?_⟩, fun _ hroom => hroom.pred⟩
    cases hs : dispatch.state <;> simp_all [RelayDispatchState.isTerminal, RelayDispatchState.inProgress]

theorem Journaled.finished (hprog : dispatch.state.inProgress)
    (hjournaled : Journaled codec commandId
      (.commandCompleted id (relayLocalOutcome w.held dispatch.command)) w.chronicle w'.chronicle
      event) : Finished w.held w'.held id dispatch.command := by
  have hs : w.held.Sound := h.valid.sound
  obtain ⟨next, hnext, heq⟩ := hjournaled.held_eq
  have hcomplete : w.held.completeCommand event.ordinal id
      (relayLocalOutcome w.held dispatch.command) = .ok next := hnext
  have hdesk : w'.held.desk = next.desk := by
    show w'.chronicle.held.desk = _
    rw [heq]
    rfl
  have hdispatches : w'.held.dispatches = next.dispatches := by
    show w'.chronicle.held.dispatches = _
    rw [heq]
  obtain ⟨hsome, hnone⟩ := hs.completeCommand_local h.readyDigest hd hlocal
  constructor
  . cases hfinish : w.held.desk.finish dispatch.command with
    | none =>
      obtain ⟨message, herror⟩ := hnone hfinish
      rw [hcomplete] at herror
      cases herror
    | some d =>
      obtain ⟨next', hnext', hd'⟩ := hsome d hfinish
      rw [hcomplete, Except.ok.injEq] at hnext'
      rw [hdesk, hnext', hd']
  . intro dispatch' hd'
    rw [hdispatches] at hd'
    obtain ⟨ids, hdischarges⟩ := hs.completeCommand hd hprog hcomplete
    obtain ⟨state, _, hterminal, hget, _⟩ := hdischarges.settled id hdischarges.mem
    rw [hd', hd, Option.map_some, Option.some.injEq] at hget
    rw [hget]
    exact hterminal
  . intro other dispatch' hne hother hlocal' _
    rw [hdispatches]
    exact hs.get?_completeCommand_local hd hprog hcomplete hne hother hlocal'

theorem completeRelayLocal_does (Accepts : RelaySnapshot → RelayCommand → Prop)
    (hprog : dispatch.state.inProgress)
    : Does codec origin Accepts sessionId
        (Room codec 2 w.held ∧ (w.held.desk.finish dispatch.command).isSome)
        (fun _ w' =>
          (∀ n, Room codec (n + 2) w.held →
            Room codec n w'.held ∧ Finished w.held w'.held id dispatch.command) ∧
          (dispatch.command.isCompleteCheckpoint → Finished w.held w'.held id dispatch.command))
        w (completeRelayLocal codec id dispatch.command) := by
  have hs : w.held.Sound := h.valid.sound
  have hid := hs.aligned.identifier_of_dispatch hd
  have hfits (hroom : Fits codec w.held) := relayLocalOutcome_fits hs hroom hid hlocal
  have hsettling : Settling w.held
      (.commandCompleted id (relayLocalOutcome w.held dispatch.command)) :=
    ⟨dispatch, hd, Or.inl rfl⟩
  unfold completeRelayLocal
  apply does_get_bind
  dsimp only
  rw [h.snapshot]
  refine does_bind (.pre (appendRelayEvent_shortenable h (by exact hid)
    (by exact ⟨dispatch, hd, hprog⟩)) ?_) ?_
  . intro hcalm ⟨hroom, hfinish⟩
    rw [clampObservation_of_le (hfits hroom.fits)]
    apply h.accommodates hcalm hroom.pred hid (hfits hroom.fits) hsettling
    intro ordinal digest
    obtain ⟨d, hd'⟩ := Option.isSome_iff_exists.mp hfinish
    obtain ⟨next, hnext, _⟩ := (hs.completeCommand_local h.readyDigest hd hlocal).1 d hd'
    exact ⟨next, hnext⟩
  intro _ w₁ hadvanced ⟨event, _, hjournaled⟩
  have hroom₁ : ∀ n, Room codec (n + 1) w.held →
      Room codec n w₁.held ∧ Finished w.held w₁.held id dispatch.command := by
    intro n hroom
    rw [clampObservation_of_le (hfits hroom.fits)] at hjournaled
    exact ⟨hjournaled.room hsettling hroom, hjournaled.finished h hd hlocal hprog⟩
  have hcomplete₁ : dispatch.command.isCompleteCheckpoint →
      Finished w.held w₁.held id dispatch.command := by
    intro hcomplete
    rw [clampObservation_of_le (completeCheckpoint_fits hid hcomplete)] at hjournaled
    exact hjournaled.finished h hd hlocal hprog
  have haligned := hadvanced.live.valid.sound.aligned
  unfold collectIfReleased
  split
  next =>
    refine (garbageCollectRelayHistory_does hadvanced.live).mono ?_ ?_
    . intro _ ⟨hroom, _⟩
      exact (hroom₁ 1 hroom).1
    intro _ w' _ ⟨_, hheld⟩
    rw [hheld]
    refine ⟨?_, fun hcomplete => (hcomplete₁ hcomplete).prune haligned⟩
    intro n hroom
    obtain ⟨hroom', hfinished⟩ := hroom₁ (n + 1) hroom
    exact ⟨hroom'.step (.prune _), hfinished.prune haligned⟩
  next =>
    refine does_pure hadvanced.live ⟨?_, hcomplete₁⟩
    intro n hroom
    obtain ⟨hroom', hfinished⟩ := hroom₁ (n + 1) hroom
    exact ⟨hroom'.pred, hfinished⟩

theorem finishRelayLocalCommand_does
    : Does codec origin Accepts sessionId
        (Room codec 4 w.held ∧
          (dispatch.state.isTerminal = false → (w.held.desk.finish dispatch.command).isSome))
        (fun _ w' => Finishes codec w.held w'.held id dispatch)
        w (finishRelayLocalCommand codec id) := by
  unfold finishRelayLocalCommand
  apply does_get_bind
  rw [h.snapshot, hd]
  simp only [hlocal, Bool.not_true, Bool.false_eq_true, ↓reduceIte]
  split
  next hterminal =>
    have hdone : ¬ dispatch.state.isTerminal = false := by simp [hterminal]
    have hsame : Finishes codec w.held w.held id dispatch :=
      ⟨fun n hroom => hroom.mono (by omega), fun hopen _ => absurd hopen hdone⟩
    unfold collectIfReleased
    split
    . split
      . refine (garbageCollectRelayHistory_does h).mono ?_ ?_
        . intro _ hroom
          exact hroom.1.mono (by omega)
        intro _ w' _ ⟨_, hheld⟩
        refine ⟨?_, fun hopen _ => absurd hopen hdone⟩
        intro n hroom
        rw [hheld]
        exact (hroom.mono (by omega : n + 1 ≤ n + 4)).step (.prune _)
      . exact does_pure h hsame
    . exact does_pure h hsame
  rename_i hopen
  have hopen : dispatch.state.isTerminal = false := by simpa using hopen
  refine does_bind ((announceNotice_does h hd).pre (fun _ hp => hp.1.mono (by omega))) ?_
  intro _ w₁ hadvanced₁ ⟨hsame₁, hd₁, hroom₁⟩
  refine does_bind ((startIfQueued_does hadvanced₁.live hd₁ hlocal hopen).pre
    fun _ hp => (hroom₁ 3 hp.1).mono (by omega)) ?_
  intro _ w₂ hadvanced₂ ⟨hsame₂, ⟨dispatch₂, hd₂, hcommand₂, hprog₂⟩, hroom₂⟩
  have hsame := hsame₁.trans hsame₂
  have hdoes := completeRelayLocal_does hadvanced₂.live hd₂
    (by rw [hcommand₂]; exact hlocal) Accepts hprog₂
  rw [hcommand₂] at hdoes
  refine hdoes.mono ?_ ?_
  . intro _ ⟨hroom, hfinish⟩
    refine ⟨hroom₂ 2 (hroom₁ 3 hroom), ?_⟩
    rw [hsame.desk]
    exact hfinish hopen
  intro _ w' _ ⟨hroom₃, hcomplete⟩
  constructor
  . intro n hroom
    exact (hroom₃ n (hroom₂ (n + 2) (hroom₁ (n + 3) hroom))).1
  intro _ hor
  apply Finished.of_undisturbed hsame
  cases hor with
  | inl h => exact hcomplete h
  | inr hroom => exact (hroom₃ 0 (hroom₂ 2 (hroom₁ 3 hroom))).2

end

end Finish

end Hel
