import Hel.Worker.Lemmas.Claim

/-!
This module contains the specifications of what is recorded about commands and observed from the
agent, and of acknowledgements, prompt contexts and attaches.
-/

namespace Hel

variable {codec : RelayCodec} {origin : Origin} {Accepts : RelaySnapshot → RelayCommand → Prop}
  {sessionId : String} {w : World} {id : String}

section Record

variable {o : RelayObservation}

variable (h : Live codec origin sessionId w)

include h

theorem recordThenPromote_does (ho : o.shortenable) (hadm : w.held.Admissible o)
    : Sustains codec origin Accepts sessionId w (recordThenPromote codec id o) := by
  unfold recordThenPromote
  refine does_bind (appendRelayEvent_shortenable h ho hadm).unpromised ?_
  intro _ w₁ hadvanced₁ _
  refine does_bind (promoteNextQueuedCommand_does hadvanced₁.live).unpromised ?_
  intro _ w₂ hadvanced₂ _
  exact does_pure hadvanced₂.live trivial

theorem recordCommandCompleted_does (outcome : RelayCommandOutcome)
    : Sustains codec origin Accepts sessionId w (recordCommandCompleted codec id outcome) := by
  unfold recordCommandCompleted
  apply does_get_bind
  rw [h.snapshot]
  cases hd : w.held.dispatches.get? id with
  | none => exact does_fail h (fun _ hfalse => hfalse)
  | some dispatch =>
  dsimp only
  split
  . exact does_fail h (fun _ hfalse => hfalse)
  rename_i hstate
  split
  . exact does_fail h (fun _ hfalse => hfalse)
  apply recordThenPromote_does h
  . exact h.valid.sound.aligned.identifier_of_dispatch hd
  refine ⟨dispatch, hd, ?_⟩
  simp only [ne_eq, Decidable.not_not] at hstate
  rw [hstate]
  rfl

theorem recordCommandEnded_does (message : String)
    : Sustains codec origin Accepts sessionId w (recordCommandRejected codec id message) ∧
        Sustains codec origin Accepts sessionId w (recordCommandInterrupted codec id message) := by
  unfold recordCommandRejected recordCommandInterrupted
  constructor
  all_goals
    apply does_get_bind
    rw [h.snapshot]
    cases hd : w.held.dispatches.get? id with
    | none => exact does_fail h (fun _ hfalse => hfalse)
    | some dispatch =>
      exact recordThenPromote_does h (h.valid.sound.aligned.identifier_of_dispatch hd) trivial

theorem cancelCheckpointBarrierOnDisconnect_does
    : Sustains codec origin Accepts sessionId w (cancelCheckpointBarrierOnDisconnect codec id) := by
  unfold cancelCheckpointBarrierOnDisconnect
  apply does_get_bind
  rw [h.snapshot]
  cases hd : w.held.dispatches.get? id with
  | none => exact does_pure h trivial
  | some dispatch =>
  dsimp only
  split
  . exact does_pure h trivial
  refine does_bind (recordThenPromote_does h
    (h.valid.sound.aligned.identifier_of_dispatch hd) trivial) ?_
  intro _ w' hadvanced _
  exact does_pure hadvanced.live trivial

theorem recordObservation_does (ho : o.fromAgent)
    : Sustains codec origin Accepts sessionId w (recordObservation codec o) := by
  have hshort : o.shortenable := by
    cases o <;> first | exact ho | cases ho
  exact (appendRelayEvent_shortenable h hshort (admissible_of_fromAgent ho)).sustains

theorem recordObservation_closed_does (hclosed : w.held.execution = .closed)
    : Sustains codec origin Accepts sessionId w (recordObservation codec .closed) := by
  refine (appendRelayEvent_does h (o := .closed) ?_ hclosed trivial).sustains
  exact clampObservation_of_le (codec.compact_fits .closed rfl)

end Record

section Ready

def ReadyAt (id : String) (c c' : Chronicle) : Prop :=
  c'.history = c.history ∨
    ∃ event, c'.history = c.history ++ [event] ∧
      event.observation = .checkpointReady id event.ordinal ∧
      c'.held.checkpointReadyThrough = some event.ordinal ∧
      c'.held.checkpointReadyDigest = some event.digest

theorem Journaled.readyAt {c c' : Chronicle} {commandId : Option String} {through : Nat}
    {event : RelayEvent} (h : Journaled codec commandId (.checkpointReady id through) c c' event)
    : ReadyAt id c c' := by
  obtain ⟨next, hnext, heq⟩ := h.held_eq
  have hready : c.held.readyBarrier event.ordinal event.digest id through = .ok next := hnext
  unfold RelaySnapshot.readyBarrier at hready
  split at hready
  . cases hready
  split at hready
  . cases hready
  split at hready
  . cases hready
  split at hready
  . cases hready
  rename_i hthrough
  simp only [ne_eq, Decidable.not_not] at hthrough
  rw [Except.ok.injEq] at hready
  refine Or.inr ⟨event, h.history_eq, ?_, ?_, ?_⟩
  . rw [h.observation_eq, hthrough]
  . rw [heq, ← hready, hthrough]
  . rw [heq, ← hready]

theorem fits_checkpointReady (hid : isIdentifier id) (through : Nat)
    : clampObservation codec (.checkpointReady id through) RELAY_OBSERVATION_BYTE_BUDGET
        = .checkpointReady id through :=
  clampObservation_of_le (codec.compact_fits (.checkpointReady id through) hid)

theorem recordCheckpointReady_does (h : Live codec origin sessionId w)
    : Sustains codec origin Accepts sessionId w (recordCheckpointReady codec id) := by
  have hfail : ∀ message, Sustains codec origin Accepts sessionId w
      (Program.fail message : RelayM Nat) := fun _ => does_fail h (fun _ hfalse => hfalse)
  unfold recordCheckpointReady
  apply does_get_bind
  dsimp only
  rw [h.snapshot]
  cases hd : w.held.dispatches.get? id with
  | none => exact hfail _
  | some dispatch =>
  have hid := h.valid.sound.aligned.identifier_of_dispatch hd
  dsimp only
  split
  . exact hfail _
  split
  . exact hfail _
  split
  . exact hfail _
  split
  . exact hfail _
  split
  . exact hfail _
  . exact (appendRelayEvent_does h (fits_checkpointReady hid _) trivial trivial).sustains

theorem recordCheckpointReady_readyAt (h : Live codec origin sessionId w) (id : String)
    : Program.Lands (fun w' => ReadyAt id w.chronicle w'.chronicle)
        (fun w' => ReadyAt id w.chronicle w'.chronicle)
        (fun _ w' => ReadyAt id w.chronicle w'.chronicle)
        (recordCheckpointReady codec id w) := by
  have hsame : ReadyAt id w.chronicle w.chronicle := Or.inl rfl
  unfold recordCheckpointReady
  apply Program.lands_get_bind
  rw [h.snapshot]
  cases hd : w.held.dispatches.get? id with
  | none => exact hsame
  | some dispatch =>
  have hid := h.valid.sound.aligned.identifier_of_dispatch hd
  dsimp only
  split
  . exact hsame
  split
  . exact hsame
  split
  . exact hsame
  split
  . exact hsame
  split
  . exact hsame
  refine (appendRelayEvent_lands (fun _ _ => True) h (fits_checkpointReady hid _) trivial
    trivial).mono ?_ ?_ ?_
  . intro _ w' ⟨_, _, _, event, _, hjournaled⟩
    exact hjournaled.readyAt
  . intro w' ⟨_, _, hw', _⟩
    rcases hw' with heq | ⟨event, hjournaled⟩
    . exact Or.inl (congrArg Chronicle.history heq)
    . exact hjournaled.readyAt
  . intro w' ⟨_, _, _, hw', _⟩
    rcases hw' with heq | ⟨event, hjournaled⟩
    . exact Or.inl (congrArg Chronicle.history heq)
    . exact hjournaled.readyAt

end Ready

section Controller

theorem rememberReplayCursor_eq (relay : DurableRelay) (ordinal : Nat) (digest : String)
    : ∃ cursors, rememberReplayCursor relay ordinal digest = { relay with replayCursors := cursors } ∧
        ∀ cursor ∈ cursors, cursor ∈ relay.replayCursors ∨ cursor = (ordinal, digest) := by
  unfold rememberReplayCursor
  split
  . exact ⟨_, rfl, fun _ => Or.inl⟩
  refine ⟨_, rfl, ?_⟩
  intro cursor hmem
  exact (mem_pushBounded hmem).imp_left List.mem_of_mem_filter

variable (h : Live codec origin sessionId w)

include h

theorem Live.origin_le_retainedThrough : origin.ordinal ≤ (replayPlan w.relay).retainedThrough := by
  show origin.ordinal ≤ w.relay.snapshot.retainedThrough
  rw [h.snapshot]
  exact h.retained_bounds.1

theorem advanceAcknowledgement_does {ordinal : Nat} {digest : String}
    (hchain : OnChain origin w.history ordinal digest) (hle : ordinal ≤ w.held.latestOrdinal)
    : Sustains codec origin Accepts sessionId w (advanceAcknowledgement codec ordinal digest) := by
  unfold advanceAcknowledgement
  apply does_get_bind
  rw [h.snapshot]
  split
  next hlt =>
    refine (commitSnapshot_does h (.single ?_)).sustains
    exact .acknowledge hchain hlt hle
  next => exact does_pure h trivial

theorem acknowledge_does (ordinal : Nat) (digest : String)
    : Sustains codec origin Accepts sessionId w (acknowledge codec ordinal digest) := by
  unfold acknowledge
  apply does_get_bind
  dsimp only
  split
  . exact does_pure h trivial
  rename_i hcursor
  obtain ⟨_, hle, hchain⟩ := validateCursor_sound h.viewSound h.planSound
    h.origin_le_retainedThrough hcursor
  have hle' : ordinal ≤ w.held.latestOrdinal := by
    rw [← h.snapshot]
    exact hle
  refine does_bind (advanceAcknowledgement_does h hchain hle') ?_
  intro _ w₁ hadvanced₁ _
  have hcollect : Sustains codec origin Accepts sessionId w₁
      (collectAcknowledged codec ordinal) := by
    unfold collectAcknowledged
    apply does_get_bind
    split
    . exact (garbageCollectRelayHistory_does hadvanced₁.live).sustains
    . exact does_pure hadvanced₁.live trivial
  refine does_bind hcollect ?_
  intro _ w₂ hadvanced₂ _
  apply does_get_bind
  exact does_pure hadvanced₂.live trivial

theorem installPromptContext_does (text : String)
    : Sustains codec origin Accepts sessionId w (installPromptContext codec text) := by
  unfold installPromptContext
  apply does_get_bind
  dsimp only
  rw [h.snapshot]
  split
  . exact does_fail h (fun _ hfalse => hfalse)
  split
  . exact does_fail h (fun _ hfalse => hfalse)
  apply does_ofExcept_bind h (fun _ _ _ hfalse => hfalse)
  intro _ _
  exact (commitSnapshot_does h (.single (.context _))).sustains

theorem attachRelay_does (ordinal : Nat) (digest : String)
    : Sustains codec origin Accepts sessionId w (attachRelay codec ordinal digest) := by
  unfold attachRelay
  apply does_get_bind
  apply does_ofExcept_bind h (fun _ _ _ hfalse => hfalse)
  intro response hresponse
  have hremember : Sustains codec origin Accepts sessionId w (rememberAttached response) := by
    unfold rememberAttached
    split
    next state events through throughDigest =>
      obtain ⟨_, _, hpage⟩ := attach_exact h.valid.recorded h.viewSound h.planSound
        h.origin_le_retainedThrough hresponse
      obtain ⟨cursors, heq, hcursors⟩ := rememberReplayCursor_eq w.relay through throughDigest
      apply does_modifyRelay h <;> simp only [heq]
      . exact h.hot
      intro cursor hmem
      rcases hcursors cursor hmem with hold | rfl
      . exact h.cursors cursor hold
      . exact hpage.through
    next => exact does_pure h trivial
  refine does_bind hremember ?_
  intro _ w' hadvanced _
  exact does_pure hadvanced.live trivial

end Controller

end Hel
