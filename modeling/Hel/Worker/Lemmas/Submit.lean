import Hel.Worker.Lemmas.Finish
import Hel.Worker.Lemmas.Replay

/-!
This module contains the specification of a submission.
-/

namespace Hel

variable {codec : RelayCodec} {origin : Origin} {sessionId : String} {w : World}
  {command : RelayCommand} {response : Except RelayProtocolError RelayResponsePayload}

section Guards

theorem isCompleteCheckpoint_of_closing {s : RelaySnapshot}
    (h : closingRejection s command = none) (hclosing : s.ledger.closing)
    : command.isCompleteCheckpoint := by
  have hrequested : closeRequested s = true := by
    cases hr : closeRequested s with
    | false => exact absurd hclosing (RelaySnapshot.not_closing_of_closeRequested hr)
    | true => rfl
  unfold closingRejection at h
  cases hp : pendingCloseBarrierId s with
  | none =>
    unfold closeRequested at hrequested
    rw [hp] at hrequested
    cases hrequested
  | some barrier =>
  simp only [hp, hrequested, Bool.true_and] at h
  by_cases hc : command = .completeCheckpoint barrier
  . rw [hc]
    rfl
  . simp [hc] at h

theorem barrier_of_close {relay : DurableRelay} {files : JournalFiles}
    (h : commandRejection codec relay files command = .ok none) (hclose : command.isClose)
    : relay.snapshot.checkpointBarrier.isSome := by
  cases command with
  | close barrierCommandId expected =>
    unfold commandRejection at h
    simp only [Except.ok.injEq] at h
    split at h
    next hcut =>
      unfold exactCut at hcut
      simp only [Bool.and_eq_true, decide_eq_true_eq] at hcut
      rw [hcut.1.1.1.1]
      rfl
    next => cases h
  | _ => cases hclose

theorem Live.onChain_of_advance (h : Live codec origin sessionId w) {through : RelayCursor}
    (haccepted : commandRejection codec w.relay w.disk.journal.files
      (.advanceRecoveryFloor through) = .ok none)
    : through.ordinal ≤ w.held.latestOrdinal ∧
        OnChain origin w.history through.ordinal through.digest := by
  have hfloor := (h.valid.frontiers.floor.bounds h.valid.recorded).1
  have hrejection : recoveryFloorRejection codec w.relay w.disk.journal.files through = .ok none := by
    unfold commandRejection at haccepted
    dsimp only at haccepted
    split at haccepted
    . cases haccepted
    . assumption
    . cases haccepted
  unfold recoveryFloorRejection at hrejection
  rw [h.snapshot] at hrejection
  split at hrejection
  . cases hrejection
  rename_i hlatest
  split at hrejection
  . cases hrejection
  rename_i hbehind
  split at hrejection
  . cases hrejection
  rename_i hdigest
  split at hrejection
  . cases hrejection
  . cases hrejection
  rename_i expected hexpected
  split at hrejection
  . cases hrejection
  rename_i heq
  simp only [ne_eq, Decidable.not_not] at heq
  simp only [Bool.not_eq_eq_eq_not, Bool.not_true, Bool.not_eq_false] at hdigest
  rw [← heq] at hexpected
  refine ⟨by omega, ?_⟩
  have horigin : origin.ordinal ≤ through.ordinal :=
    Nat.le_trans hfloor (Nat.le_of_not_lt hbehind)
  have hle : through.ordinal ≤ (replayPlan w.relay).latestOrdinal := by
    show through.ordinal ≤ w.relay.snapshot.latestOrdinal
    rw [h.snapshot]
    omega
  exact digestAt_sound h.viewSound h.planSound horigin hle hexpected hdigest

end Guards

section Submit

variable {Accepts : RelaySnapshot → RelayCommand → Prop} {id : String}

def Finishable (s : RelaySnapshot) (id : String) (command : RelayCommand) : Prop :=
  ∀ dispatch, s.dispatches.get? id = some dispatch → command.isRelayLocal →
    dispatch.state.isTerminal = false → (s.desk.finish command).isSome

inductive Submitted (codec : RelayCodec) (origin : Origin)
    (Accepts : RelaySnapshot → RelayCommand → Prop) (c : Chronicle) (id : String)
    (command : RelayCommand) :
    Except RelayProtocolError RelayResponsePayload → Chronicle → Prop where
  | repeated {handled : HandledRelayCommand} {c' : Chronicle} :
      c.held.handledCommands.get? id = some handled → handled.command = command →
      Evolves codec origin (fun _ _ => False) c c' →
      Submitted codec origin Accepts c id command (.ok (.accepted id handled.acceptedOrdinal)) c'
  | conflicting {handled : HandledRelayCommand} :
      c.held.handledCommands.get? id = some handled → handled.command ≠ command →
      Submitted codec origin Accepts c id command
        (.error (relayProtocolError .invalidRequest
          "command ID was already used for a different command")) c
  | refused {error : RelayProtocolError} :
      c.held.handledCommands.get? id = none ∨
        RELAY_COMMAND_BYTE_BUDGET < codec.commandLen command →
      Submitted codec origin Accepts c id command (.error error) c
  | accepted {event : RelayEvent} {createdAtMs : Int} {c₁ c' : Chronicle} :
      c.held.handledCommands.get? id = none →
      Transition codec origin Accepts c c₁ → c₁.history = c.history ++ [event] →
      event.observation = .commandQueued id command createdAtMs →
      Evolves codec origin (fun _ _ => False) c₁ c' →
      Submitted codec origin Accepts c id command (.ok (.accepted id event.ordinal)) c'

def Answered (s : RelaySnapshot) (codec : RelayCodec) (id : String) (command : RelayCommand)
    (response : Except RelayProtocolError RelayResponsePayload) : Prop :=
  ∀ handled, s.handledCommands.get? id = some handled → handled.command = command →
    codec.commandLen command ≤ RELAY_COMMAND_BYTE_BUDGET →
    response = .ok (.accepted id handled.acceptedOrdinal)

theorem Submitted.answered {c c' : Chronicle}
    (h : Submitted codec origin Accepts c id command response c')
    : Answered c.held codec id command response := by
  intro handled hh hcommand hlen
  cases h with
  | repeated hh' _ =>
    cases hh.symm.trans hh'
    rfl
  | conflicting hh' hne =>
    cases hh.symm.trans hh'
    exact absurd hcommand hne
  | refused hreason =>
    rcases hreason with hnone | hlong
    . cases hh.symm.trans hnone
    . omega
  | accepted hnone => cases hh.symm.trans hnone

section

variable (h : Live codec origin sessionId w)

include h

theorem finishIfLocal_does {dispatch : RelayDispatchRecord}
    (hd : w.held.dispatches.get? id = some dispatch) (hcommand : dispatch.command = command)
    : Does codec origin Accepts sessionId (Room codec 4 w.held ∧ Finishable w.held id command)
        (fun _ _ => True) w (finishIfLocal codec id command) := by
  unfold finishIfLocal
  split
  next hlocal =>
    rw [← hcommand] at hlocal
    refine (finishRelayLocalCommand_does h hd hlocal).mono ?_ (fun _ _ _ _ => trivial)
    intro _ ⟨hroom, hfinish⟩
    refine ⟨hroom, fun hopen => ?_⟩
    rw [hcommand] at hlocal ⊢
    exact hfinish dispatch hd hlocal hopen
  next => exact does_pure h trivial

theorem acceptCommand_submitted (hnew : w.held.handledCommands.get? id = none)
    (hlen : codec.commandLen command ≤ RELAY_COMMAND_BYTE_BUDGET) (hid : isIdentifier id)
    (hadm : w.held.Admissible (.commandQueued id command 0))
    (hpermitted : Permitted codec origin Accepts w.chronicle (.commandQueued id command 0))
    : Does codec origin Accepts sessionId False
        (fun response w' =>
          Submitted codec origin Accepts w.chronicle id command response w'.chronicle)
        w (acceptCommand codec id command) := by
  unfold acceptCommand
  apply does_epochMillis_bind h
  intro createdAtMs w₁ hadvanced hchronicle _
  have hheld : w₁.held = w.held := congrArg Chronicle.held hchronicle
  have hadm₁ : w₁.held.Admissible (.commandQueued id command createdAtMs) := by
    rw [hheld]
    exact hadm
  have hpermitted₁ : Permitted codec origin Accepts w₁.chronicle
      (.commandQueued id command createdAtMs) := by
    rw [hchronicle]
    exact hpermitted
  refine does_bind ((appendRelayEvent_does hadvanced.live
    (clampObservation_of_le (codec.queued_fits id command createdAtMs hid hlen)) hadm₁
    hpermitted₁).unpromised) ?_
  rintro ordinal w₂ hadvanced₂ ⟨event, hordinal, hjournaled⟩
  obtain ⟨next, hnext, heq⟩ := hjournaled.held_eq
  simp only [RelaySnapshot.applyObservation, Except.ok.injEq] at hnext
  have hd : w₂.held.dispatches.get? id = some { command := command, state := .queued } := by
    show w₂.chronicle.held.dispatches.get? id = _
    rw [heq, ← hnext]
    simp [RelaySnapshot.queueCommand]
  refine does_bind ((finishIfLocal_does hadvanced₂.live hd rfl).weaken.unpromised) ?_
  rintro _ w₃ hadvanced₃ ⟨hevolves₃, _⟩
  refine does_bind ((promoteNextQueuedCommand_does hadvanced₃.live).weaken.unpromised) ?_
  rintro _ w₄ hadvanced₄ ⟨hevolves₄, _⟩
  apply does_pure hadvanced₄.live
  have htransition := hjournaled.transition Accepts hadm₁ hpermitted₁
  have hhistory := hjournaled.history_eq
  rw [hchronicle] at htransition hhistory
  rw [hordinal]
  exact .accepted hnew htransition hhistory hjournaled.observation_eq (hevolves₃.trans hevolves₄)

variable (haccepts : w.held.handledCommands.get? id = none →
  Accepts w.held command ∧ (origin.guarded → FloorSafe w.held command))

include haccepts

theorem submitCommand_submitted
    : Does codec origin Accepts sessionId
        (Room codec 4 w.held ∧ (w.held.handledCommands.get? id).isSome ∧
          Finishable w.held id command)
        (fun response w' =>
          Submitted codec origin Accepts w.chronicle id command response w'.chronicle)
        w (submitCommand codec id command) := by
  unfold submitCommand
  apply does_get_bind
  dsimp only
  rw [h.snapshot]
  split
  next message hbudget =>
    apply does_pure h
    apply Submitted.refused
    right
    by_contra hlen
    exact ensureByteBudget_ne_error (Nat.le_of_not_lt hlen) hbudget
  rename_i hbudget
  have hlen := le_of_ensureByteBudget hbudget
  split
  next hid =>
    apply does_pure h
    apply Submitted.refused
    left
    cases hh : w.held.handledCommands.get? id with
    | none => exact hh
    | some handled =>
      rw [h.valid.sound.aligned.identifiers id handled hh] at hid
      cases hid
  rename_i hid
  cases hh : w.held.handledCommands.get? id with dsimp only
  | some handled =>
    split
    next hne => exact does_pure h (.conflicting hh hne)
    rename_i heq
    simp only [ne_eq, Decidable.not_not] at heq
    obtain ⟨dispatch, hd, hcommand⟩ := h.valid.sound.aligned.dispatch_of_handled hh
    refine does_bind ((finishIfLocal_does h hd (hcommand.trans heq)).weaken.pre ?_) ?_
    . intro _ ⟨hroom, _, hfinish⟩
      exact ⟨hroom, hfinish⟩
    . intro _ w' hadvanced ⟨hevolves, _⟩
      exact does_pure hadvanced.live (.repeated hh heq hevolves)
  | none =>
    split
    next error _ => exact does_pure h (.refused (Or.inl hh))
    rename_i hclosing
    apply does_ofExcept_bind h
    . intro _ _ _ ⟨_, hsome, _⟩
      cases hsome
    intro rejection hrejection
    cases rejection with
    | some error => exact does_pure h (.refused (Or.inl hh))
    | none =>
    refine (acceptCommand_submitted h hh hlen (by simpa using hid) ?_ ?_).pre ?_
    . refine ⟨hh, by simpa using hid, isCompleteCheckpoint_of_closing hclosing, ?_⟩
      intro hclose
      rw [← h.snapshot]
      exact barrier_of_close hrejection hclose
    . refine ⟨(haccepts hh).1, (haccepts hh).2, fun _ => hlen, ?_⟩
      intro through heq
      subst heq
      exact h.onChain_of_advance hrejection
    . intro _ ⟨_, hsome, _⟩
      cases hsome

theorem submitted_of_ok (hresponse : (submitCommand codec id command w).1 = .ok response)
    : Submitted codec origin Accepts w.chronicle id command response
        (submitCommand codec id command w).2.chronicle := by
  have hdoes := submitCommand_submitted h haccepts
  unfold Does at hdoes
  generalize submitCommand codec id command w = result at hdoes hresponse
  match result with
  | (.ok response', w') =>
    cases hresponse
    exact hdoes.2
  | (.error _, w') => cases hresponse
  | (.crash, w') => cases hresponse

theorem submitCommand_does
    : Does codec origin Accepts sessionId
        (Room codec 4 w.held ∧ (w.held.handledCommands.get? id).isSome ∧
          Finishable w.held id command)
        (fun response _ => Answered w.held codec id command response)
        w (submitCommand codec id command) :=
  (submitCommand_submitted h haccepts).mono (fun _ hp => hp) (fun _ _ _ hq => hq.answered)

end

end Submit

end Hel
