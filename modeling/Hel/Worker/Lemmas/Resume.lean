import Hel.Worker.Lemmas.Reopen

/-!
This module contains what becomes of the commands that were not terminal when a relay stopped, and
the specification of opening a relay.
-/

namespace Hel

open RelaySnapshot List

variable {dispatch : RelayDispatchRecord} {s s' : RelaySnapshot}
  {Accepts : RelaySnapshot → RelayCommand → Prop} {id : String} {codec : RelayCodec}
  {origin : Origin} {sessionId : String} {w : World} {entries : List (Nat × String)}
  {entry : Nat × String} {command : RelayCommand} {shell : String}
  {ordinal : Nat}

structure Leaves (id : String) (s s' : RelaySnapshot) : Prop where
  known : ∀ other dispatch, s.dispatches.get? other = some dispatch →
    ∃ dispatch', s'.dispatches.get? other = some dispatch' ∧ dispatch'.command = dispatch.command
  started : ∀ other dispatch, other ≠ id → s.dispatches.get? other = some dispatch →
    dispatch.state ≠ .queued → s'.dispatches.get? other = some dispatch

section Leaves

variable {s s' s'' : RelaySnapshot}

theorem Leaves.trans (h : Leaves id s s') (h' : Leaves id s' s'') : Leaves id s s'' := by
  constructor
  . intro other dispatch hd
    obtain ⟨dispatch', hd', hcommand⟩ := h.known other dispatch hd
    obtain ⟨dispatch'', hd'', hcommand'⟩ := h'.known other dispatch' hd'
    exact ⟨dispatch'', hd'', hcommand'.trans hcommand⟩
  . intro other dispatch hne hd hstate
    exact h'.started other dispatch hne (h.started other dispatch hne hd hstate) hstate

theorem leaves_of_frame (h : s'.dispatches = s.dispatches) : Leaves id s s' := by
  constructor
  . intro other dispatch hd
    exact ⟨dispatch, by rw [h]; exact hd, rfl⟩
  intro other dispatch _ hd _
  rw [h]
  exact hd

theorem RelaySnapshot.Terminalizes.leaves (h : s.Terminalizes s' [id]) : Leaves id s s' := by
  constructor
  . intro other dispatch hd
    obtain ⟨dispatch', hd', hcommand, _⟩ := (h.progresses (o := .closed)).dispatches other dispatch hd
    exact ⟨dispatch', hd', hcommand⟩
  intro other dispatch hne hd _
  rw [(h.kept other (by simpa using hne)).1]
  exact hd

theorem RelaySnapshot.Starts.leaves {started : String} (h : s.Starts s' started command)
    {e : LedgerEntry} (hstart : s.ledger.Startable started e) : Leaves id s s' := by
  obtain ⟨dispatch₀, hd₀, _, hphase⟩ := dispatch_of_entry hstart.entry
  rw [hstart.queued, RelayDispatchState.phase_eq_queued] at hphase
  constructor
  . intro other dispatch hd
    obtain ⟨dispatch', hd', hcommand, _⟩ :=
      (h.progresses hstart (o := .closed)).dispatches other dispatch hd
    exact ⟨dispatch', hd', hcommand⟩
  intro other dispatch _ hd hstate
  rw [h.dispatches, get?_dispatches_setDispatchState]
  split
  next heq =>
    rw [heq, hd₀, Option.some.injEq] at hd
    rw [← hd] at hstate
    exact absurd hphase hstate
  next => exact hd

theorem leaves_completedShell {shell digest : String} {outcome : RelayCommandOutcome}
    (hd : s.dispatches.get? id = some dispatch) (hc : dispatch.command = .runUserShell shell)
    (h : s.applyObservation ordinal digest (.commandCompleted id outcome) = .ok s')
    : Leaves id s s' := by
  have hterm : s.Terminalizes (s.terminalize id .completed ordinal) [id] :=
    terminalizes_terminalize s id rfl ordinal
  have h' : s.completeCommand ordinal id outcome = .ok s' := h
  unfold completeCommand at h'
  rw [hd] at h'
  dsimp only at h'
  split at h'
  . cases h'
  rw [hc] at h'
  cases outcome with
  | userShell result =>
    simp only [completeOutcome, completeUserShell] at h'
    split at h' <;> cases h'
    exact hterm.leaves.trans (leaves_of_frame rfl)
  | _ => simp [completeOutcome] at h'

theorem completedShell_eq_ok (ha : s.Aligned) (hd : s.dispatches.get? id = some dispatch)
    (hc : dispatch.command = .runUserShell shell) (ordinal : Nat) (digest : String)
    (result : UserShellResult)
    : ∃ s', s.applyObservation ordinal digest (.commandCompleted id (.userShell result)) = .ok s' := by
  obtain ⟨handled, hh, _⟩ := ha.handled_of_dispatch hd
  show ∃ s', s.completeCommand ordinal id (.userShell result) = .ok s'
  unfold completeCommand completeOutcome completeUserShell
    BTreeMap.contains
  rw [hd, hh]
  simp only [hc, Option.isSome_some, Bool.not_true, Bool.false_eq_true, ↓reduceIte]
  rw [get?_handledCommands_terminalize, hh]
  simp only [↓reduceIte, Option.map_some]
  exact ⟨_, rfl⟩

theorem interrupted_eq_ok (ha : s.Aligned) (hd : s.dispatches.get? id = some dispatch)
    (ordinal : Nat) (digest message : String)
    : ∃ s', s.applyObservation ordinal digest
        (.commandInterrupted id dispatch.command.kind message) = .ok s' := by
  obtain ⟨handled, hh, _⟩ := ha.handled_of_dispatch hd
  show ∃ s', s.terminateCommand ordinal .interrupted id dispatch.command.kind message = .ok s'
  unfold terminateCommand
  rw [hd, hh]
  simp only [ne_eq, not_true_eq_false, ↓reduceIte]
  exact ⟨_, rfl⟩

end Leaves

section Settle

variable {o : RelayObservation}

theorem Journaled.leaves {commandId : Option String} {c c' : Chronicle} {event : RelayEvent}
    (h : Journaled codec commandId o c c' event)
    (hleaves : ∀ ordinal digest next, c.held.applyObservation ordinal digest o = .ok next →
      Leaves id c.held next) : Leaves id c.held c'.held := by
  obtain ⟨next, hnext, heq⟩ := h.held_eq
  refine (hleaves _ _ next hnext).trans (leaves_of_frame ?_)
  rw [heq]

structure Settled (codec : RelayCodec) (id : String) (s s' : RelaySnapshot) : Prop where
  leaves : Leaves id s s'
  room : ∀ n, Room codec (n + 2) s → Room codec n s'

theorem recordThenPromote_settles (h : Live codec origin sessionId w) (ho : o.shortenable)
    (hadm : w.held.Admissible o) (hid : isIdentifier id)
    (hfits : codec.observationLen o ≤ RELAY_OBSERVATION_BYTE_BUDGET) (hsettling : Settling w.held o)
    (happly : ∀ ordinal digest, ∃ next, w.held.applyObservation ordinal digest o = .ok next)
    (hleaves : ∀ ordinal digest next, w.held.applyObservation ordinal digest o = .ok next →
      Leaves id w.held next)
    : Does codec origin Accepts sessionId (Room codec 2 w.held)
        (fun _ w' => Settled codec id w.held w'.held) w (recordThenPromote codec id o) := by
  unfold recordThenPromote
  refine does_bind ((appendRelayEvent_does h (clampObservation_of_le hfits) hadm
    (permitted_of_shortenable ho)).pre ?_) ?_
  . intro hcalm hroom
    exact h.accommodates hcalm hroom.pred hid hfits hsettling happly
  intro _ w₁ hadvanced₁ ⟨event₁, _, hjournaled₁⟩
  have hleaves₁ : Leaves id w.held w₁.held := hjournaled₁.leaves hleaves
  have hroom₁ : ∀ n, Room codec (n + 1) w.held → Room codec n w₁.held :=
    fun n hroom => hjournaled₁.room hsettling hroom
  refine does_bind ((promoteNextQueuedCommand_does hadvanced₁.live).pre
    (fun _ hroom => hroom₁ 1 hroom)) ?_
  intro _ w₂ hadvanced₂ hpromoted
  apply does_pure hadvanced₂.live
  rcases hpromoted with ⟨_, hsame⟩ | ⟨started, e, startedAtMs, event₂, hstart, _, hjournaled₂⟩
  . have hheld : w₂.held = w₁.held := congrArg Chronicle.held hsame
    rw [hheld]
    exact ⟨hleaves₁, fun n hroom => (hroom₁ (n + 1) hroom).pred⟩
  refine ⟨hleaves₁.trans (hjournaled₂.leaves ?_), ?_⟩
  . intro _ _ next hnext
    exact (hadvanced₁.live.valid.sound.starts hstart hnext).leaves hstart
  . intro n hroom
    exact hjournaled₂.room (settling_commandStarted hstart startedAtMs) (hroom₁ (n + 1) hroom)

section

variable (h : Live codec origin sessionId w) (hd : w.held.dispatches.get? id = some dispatch)

include h hd

theorem recordCommandInterrupted_settles {message : String}
    (hmessage : message = OWNERLESS_BARRIER ∨ message = INTERRUPTED_COMMAND)
    : Does codec origin Accepts sessionId (Room codec 2 w.held)
        (fun _ w' => Settled codec id w.held w'.held) w
        (recordCommandInterrupted codec id message) := by
  have hs : w.held.Sound := h.valid.sound
  have hid := hs.aligned.identifier_of_dispatch hd
  have hlen : message.utf8ByteSize ≤ 256 := by
    rcases hmessage with rfl | rfl <;> decide
  unfold recordCommandInterrupted
  apply does_get_bind
  rw [h.snapshot, hd]
  refine recordThenPromote_settles h hid trivial hid ?_ ⟨dispatch, hd, rfl, hmessage⟩ ?_ ?_
  . apply codec.compact_fits
    simp [RelayObservation.compact, hid, hlen]
  . intro ordinal digest
    exact interrupted_eq_ok hs.aligned hd ordinal digest message
  . intro _ _ next hnext
    exact (hs.terminateCommand rfl hnext).1.toTerminalizes.leaves

variable (hstate : dispatch.state = .inFlight)

include hstate

theorem recordShellInterrupted_settles (hc : dispatch.command = .runUserShell shell)
    : Does codec origin Accepts sessionId (Room codec 2 w.held)
        (fun _ w' => Settled codec id w.held w'.held) w
        (recordCommandCompleted codec id
          (.userShell (RelaySnapshot.terminatedShell .interrupted shell INTERRUPTED_SHELL))) := by
  have hs : w.held.Sound := h.valid.sound
  have hid := hs.aligned.identifier_of_dispatch hd
  have hbounded := h.valid.bounded id dispatch hd
  rw [hc] at hbounded
  unfold recordCommandCompleted
  apply does_get_bind
  rw [h.snapshot, hd]
  simp only [hstate, hc, RelayCommand.isBeginCheckpoint, ne_eq, not_true_eq_false, ↓reduceIte,
    Bool.false_eq_true]
  refine recordThenPromote_settles h hid ⟨dispatch, hd, by rw [hstate]; rfl⟩ hid ?_
    ⟨dispatch, hd, Or.inr ⟨shell, hc, rfl⟩⟩ ?_ ?_
  . exact codec.interruptedShell_fits id shell INTERRUPTED_SHELL hid (hbounded (Or.inl rfl))
      (by decide)
  . intro ordinal digest
    exact completedShell_eq_ok hs.aligned hd hc ordinal digest _
  . intro _ _ next hnext
    exact leaves_completedShell hd hc hnext

theorem settleInFlight_settles (hclose : dispatch.command.isClose = false)
    : Does codec origin Accepts sessionId (Room codec 2 w.held)
        (fun restored w' => restored = false ∧ Settled codec id w.held w'.held) w
        (settleInFlight codec id) := by
  have hinterrupted : Does codec origin Accepts sessionId (Room codec 2 w.held)
      (fun restored w' => restored = false ∧ Settled codec id w.held w'.held) w
      (recordCommandInterrupted codec id INTERRUPTED_COMMAND >>= fun _ => pure false) := by
    refine does_bind (recordCommandInterrupted_settles h hd (Or.inr rfl)) ?_
    intro _ w' hadvanced hsettled
    exact does_pure hadvanced.live ⟨rfl, hsettled⟩
  unfold settleInFlight
  apply does_get_bind
  rw [h.snapshot, hd]
  obtain ⟨command, state⟩ := dispatch
  cases command with
  | close => cases hclose
  | runUserShell shell =>
    refine does_bind (recordShellInterrupted_settles h hd hstate rfl) ?_
    intro _ w' hadvanced hsettled
    exact does_pure hadvanced.live ⟨rfl, hsettled⟩
  | _ => exact hinterrupted

end

end Settle

section Finish

variable {commandOf : String → Option RelayCommand}

def Waiting (commandOf : String → Option RelayCommand) (s : RelaySnapshot)
    (entries : List (Nat × String)) : Prop :=
  ∀ entry ∈ entries, ∃ dispatch, s.dispatches.get? entry.2 = some dispatch ∧
    commandOf entry.2 = some dispatch.command ∧ dispatch.command.isRelayLocal ∧
    dispatch.state.isTerminal = false

theorem Waiting.tail (h : Waiting commandOf s (entry :: entries))
    (hfinished : Finished s s' entry.2 command) (hnodup : entry.2 ∉ entries.map (·.2))
    : Waiting commandOf s' entries := by
  intro other hother
  obtain ⟨dispatch, hd, hcommand, hlocal, hopen⟩ := h other (mem_cons_of_mem _ hother)
  have hne : other.2 ≠ entry.2 := ne_of_mem_of_not_mem (mem_map_of_mem hother) hnodup
  exact ⟨dispatch, hfinished.locals other.2 dispatch hne hd hlocal hopen, hcommand, hlocal, hopen⟩

def NoCompletion (entries : List (Nat × String)) (s : RelaySnapshot) : Prop :=
  ∀ entry ∈ entries, ∀ dispatch, s.dispatches.get? entry.2 = some dispatch →
    dispatch.command.isCompleteCheckpoint → dispatch.state.isTerminal

theorem noCompletion_of_finishes (hd : s.dispatches.get? entry.2 = some dispatch)
    (hstems : Stems s s') (h : Finishes codec s s' entry.2 dispatch) : NoCompletion [entry] s' := by
  rw [NoCompletion, forall_mem_singleton]
  intro dispatch' hd' hcomplete
  obtain ⟨dispatch'', hd'', hcommand, hterminal⟩ := hstems _ _ hd'
  cases hd.symm.trans hd''
  cases hstate : dispatch.state.isTerminal with
  | true => exact hterminal hstate
  | false =>
    rw [hcommand] at hcomplete
    exact (h.finished hstate (Or.inl hcomplete)).done dispatch' hd'

theorem NoCompletion.stems (h : NoCompletion entries s) (hstems : Stems s s')
    : NoCompletion entries s' := by
  intro entry hmem dispatch' hd' hcomplete
  obtain ⟨dispatch, hd, hcommand, hterminal⟩ := hstems _ _ hd'
  rw [hcommand] at hcomplete
  exact hterminal (h entry hmem dispatch hd hcomplete)

theorem finishRelayLocalCommand_refuses {id : String} {P : Prop} (h : Live codec origin sessionId w)
    (hno : ¬ ∃ dispatch, w.held.dispatches.get? id = some dispatch ∧ dispatch.command.isRelayLocal)
    (hp : w.Calm → ¬ P)
    : Does codec origin Accepts sessionId P (fun _ _ => False) w
        (finishRelayLocalCommand codec id) := by
  unfold finishRelayLocalCommand
  apply does_get_bind
  rw [h.snapshot]
  cases hd : w.held.dispatches.get? id with
  | none => exact does_fail h hp
  | some dispatch =>
  have hlocal : dispatch.command.isRelayLocal = false := by
    rw [← Bool.not_eq_true]
    intro hlocal
    exact hno ⟨dispatch, hd, hlocal⟩
  simp only [hlocal, Bool.not_false, ↓reduceIte]
  exact does_fail h hp

theorem finishAll_does (commandOf : String → Option RelayCommand) (n : Nat)
    (h : Live codec origin sessionId w) (hnodup : (entries.map (·.2)).Nodup)
    : Does codec origin (fun _ _ => False) sessionId
        (Room codec (4 * entries.length + n) w.held ∧ Waiting commandOf w.held entries ∧
          (w.held.desk.finishAll (entries.filterMap (commandOf ·.2))).isSome)
        (fun _ w' => NoCompletion entries w'.held ∧
          (Room codec (4 * entries.length + n) w.held → Waiting commandOf w.held entries →
            Room codec n w'.held ∧
            w.held.desk.finishAll (entries.filterMap (commandOf ·.2)) = some w'.held.desk))
        w (finishAll codec entries) := by
  induction entries generalizing w with
  | nil =>
    refine does_pure h ⟨fun _ hmem => (not_mem_nil hmem).elim, ?_⟩
    intro hroom _
    exact ⟨hroom.mono (by simp), rfl⟩
  | cons entry rest ih =>
    rw [map_cons, nodup_cons] at hnodup
    unfold finishAll
    by_cases hknown : ∃ dispatch, w.held.dispatches.get? entry.2 = some dispatch ∧
        dispatch.command.isRelayLocal
    case neg =>
      refine does_bind (finishRelayLocalCommand_refuses h hknown ?_) (fun _ _ _ hfalse => hfalse.elim)
      intro _ ⟨_, hwaiting, _⟩
      obtain ⟨dispatch, hd, _, hlocal, _⟩ := hwaiting entry mem_cons_self
      exact hknown ⟨dispatch, hd, hlocal⟩
    obtain ⟨dispatch, hd, hlocal⟩ := hknown
    have hhead : Waiting commandOf w.held (entry :: rest) →
        commandOf entry.2 = some dispatch.command ∧ dispatch.state.isTerminal = false := by
      intro hwaiting
      obtain ⟨dispatch', hd', hcommand, _, hopen⟩ := hwaiting entry mem_cons_self
      cases hd.symm.trans hd'
      exact ⟨hcommand, hopen⟩
    have hcommands : Waiting commandOf w.held (entry :: rest) →
        (entry :: rest).filterMap (commandOf ·.2)
          = dispatch.command :: rest.filterMap (commandOf ·.2) := by
      intro hwaiting
      rw [filterMap_cons, (hhead hwaiting).1]
    refine does_bind ((finishRelayLocalCommand_does h hd hlocal).pre ?_) ?_
    . intro _ ⟨hroom, hwaiting, hfinish⟩
      refine ⟨hroom.mono (by simp only [length_cons]; omega), fun _ => ?_⟩
      rw [hcommands hwaiting] at hfinish
      unfold Desk.finishAll at hfinish
      cases hstep : w.held.desk.finish dispatch.command with
      | none =>
        rw [hstep] at hfinish
        cases hfinish
      | some d => rfl
    intro _ w₁ hadvanced₁ hfinishes
    have hlength : 4 * (entry :: rest).length + n = 4 * rest.length + n + 4 := by
      rw [length_cons]
      omega
    have hnext : Room codec (4 * (entry :: rest).length + n) w.held →
        Waiting commandOf w.held (entry :: rest) →
        Room codec (4 * rest.length + n) w₁.held ∧ Waiting commandOf w₁.held rest ∧
          w.held.desk.finishAll ((entry :: rest).filterMap (commandOf ·.2))
            = w₁.held.desk.finishAll (rest.filterMap (commandOf ·.2)) := by
      intro hroom hwaiting
      rw [hlength] at hroom
      have hfinished := hfinishes.finished (hhead hwaiting).2 (Or.inr (hroom.mono (by omega)))
      refine ⟨hfinishes.room _ hroom, hwaiting.tail hfinished hnodup.1, ?_⟩
      rw [hcommands hwaiting, Desk.finishAll, hfinished.desk]
      rfl
    refine (ih hadvanced₁.live hnodup.2).mono ?_ ?_
    . intro _ ⟨hroom, hwaiting, hfinish⟩
      obtain ⟨hroom₁, hwaiting₁, hdesk⟩ := hnext hroom hwaiting
      rw [hdesk] at hfinish
      exact ⟨hroom₁, hwaiting₁, hfinish⟩
    intro _ w' hadvanced' ⟨hnone, hrest⟩
    have hfirst := (noCompletion_of_finishes hd (hadvanced₁.evolves.stems h.valid) hfinishes).stems
      (hadvanced'.evolves.stems hadvanced₁.live.valid)
    refine ⟨?_, ?_⟩
    . rw [NoCompletion, forall_mem_cons]
      exact ⟨hfirst _ (mem_singleton_self _), hnone⟩
    intro hroom hwaiting
    obtain ⟨hroom₁, hwaiting₁, hdesk⟩ := hnext hroom hwaiting
    rw [hdesk]
    exact hrest hroom₁ hwaiting₁

theorem interruptAll_does (n : Nat) (h : Live codec origin sessionId w)
    (hknown : ∀ entry ∈ entries, ∃ dispatch, w.held.dispatches.get? entry.2 = some dispatch)
    : Does codec origin Accepts sessionId (Room codec (2 * entries.length + n) w.held)
        (fun _ w' => Room codec (2 * entries.length + n) w.held → Room codec n w'.held)
        w (interruptAll codec OWNERLESS_BARRIER entries) := by
  induction entries generalizing w with
  | nil => exact does_pure h (fun hroom => hroom.mono (by simp))
  | cons entry rest ih =>
    have hlength : 2 * (entry :: rest).length + n = 2 * rest.length + n + 2 := by
      rw [length_cons]
      omega
    obtain ⟨dispatch, hd⟩ := hknown entry mem_cons_self
    unfold interruptAll
    refine does_bind ((recordCommandInterrupted_settles h hd (Or.inl rfl)).pre ?_) ?_
    . intro _ hroom
      exact hroom.mono (by omega)
    intro _ w₁ hadvanced₁ hsettled
    have hroom₁ : Room codec (2 * (entry :: rest).length + n) w.held →
        Room codec (2 * rest.length + n) w₁.held := by
      intro hroom
      rw [hlength] at hroom
      exact hsettled.room _ hroom
    refine (ih hadvanced₁.live ?_).mono (fun _ hroom => hroom₁ hroom)
      (fun _ _ _ hq hroom => hq (hroom₁ hroom))
    intro other hother
    obtain ⟨dispatch', hd'⟩ := hknown other (mem_cons_of_mem _ hother)
    obtain ⟨dispatch'', hd'', _⟩ := hsettled.leaves.known _ _ hd'
    exact ⟨dispatch'', hd''⟩

end Finish

section Close

open Program (Lands lands_get_bind lands_modify_bind lands_pure_bind)

theorem persistClose_opens (h : Live codec origin sessionId w)
    (hd : w.held.dispatches.get? id = some dispatch) (hclose : dispatch.command.isClose)
    (hstate : dispatch.state = .inFlight)
    : Lands
        (fun w' => Shut codec origin Accepts sessionId w w' ∧ ¬ (w.Calm ∧ Room codec 1 w.held))
        (fun w' => Shut codec origin Accepts sessionId w w' ∧ ¬ w.Calm)
        (fun _ w' => Resumed codec origin Accepts sessionId w w' ∧
          w'.held = w.held.setDispatchState id .pending)
        (persistSnapshot codec { w with
            relay := { w.relay with snapshot := w.relay.snapshot.setDispatchState id .pending } }) := by
  have htransition : Transition codec origin Accepts w.chronicle
      { w.chronicle with held := w.held.setDispatchState id .pending } := .reclose hd hclose hstate
  have hconsistent := h.toConsistent.withMemory
    { w.relay with snapshot := w.relay.snapshot.setDispatchState id .pending }
    rfl h.hot h.cursors rfl
  have hsnapshot := h.snapshot
  refine Lands.mono (persistSnapshot_commits hconsistent ?_ ?_) ?_ ?_ ?_
  . dsimp only
    rw [hsnapshot]
    exact htransition.valid h.valid
  . dsimp only
    rw [hsnapshot]
    rfl
  . intro _ w' ⟨hlive, hcalm, schedule, heq⟩
    have hheld : w'.chronicle = { w.chronicle with held := w.held.setDispatchState id .pending } := by
      rw [heq, ← hsnapshot]
      rfl
    refine ⟨⟨hlive, ?_, fun hc => hcalm ⟨hc.steady, hc.writes⟩⟩, congrArg Chronicle.held hheld⟩
    rw [hheld]
    exact .single htransition
  . intro w' ⟨⟨schedule, heq⟩, hno⟩
    rw [heq]
    refine ⟨⟨(hconsistent.schedule schedule).recoverable, .refl⟩, ?_⟩
    intro ⟨hcalm, hroom⟩
    dsimp only at hno
    rw [hsnapshot] at hno
    exact hno ⟨⟨hcalm.steady, hcalm.writes⟩, (hroom.step (.reclose hd hclose)).fits.pretty⟩
  . intro w' ⟨⟨schedule, heq⟩, hno⟩
    rw [heq]
    refine ⟨⟨(hconsistent.schedule schedule).recoverable, .refl⟩, ?_⟩
    intro hcalm
    exact hno ⟨hcalm.steady, hcalm.writes⟩

structure Handed (s : RelaySnapshot) (entries : List (Nat × String)) : Prop where
  nodup : (entries.map (·.2)).Nodup
  inFlight : ∀ entry ∈ entries, ∃ dispatch, s.dispatches.get? entry.2 = some dispatch ∧
    dispatch.state = .inFlight
  close : entries.Pairwise (fun entry _ => ∀ dispatch,
    s.dispatches.get? entry.2 = some dispatch → dispatch.command.isClose = false)

theorem Handed.tail (h : Handed s (entry :: entries)) (hleaves : Leaves entry.2 s s')
    : Handed s' entries := by
  have hnodup := h.nodup
  rw [map_cons, nodup_cons] at hnodup
  have hsame : ∀ other ∈ entries, ∃ dispatch, s.dispatches.get? other.2 = some dispatch ∧
      dispatch.state = .inFlight ∧ s'.dispatches.get? other.2 = some dispatch := by
    intro other hother
    obtain ⟨dispatch, hd, hstate⟩ := h.inFlight other (mem_cons_of_mem _ hother)
    have hne : other.2 ≠ entry.2 := ne_of_mem_of_not_mem (mem_map_of_mem hother) hnodup.1
    exact ⟨dispatch, hd, hstate, hleaves.started _ _ hne hd (by rw [hstate]; simp)⟩
  constructor
  . exact hnodup.2
  . intro other hother
    obtain ⟨dispatch, _, hstate, hd'⟩ := hsame other hother
    exact ⟨dispatch, hd', hstate⟩
  refine (pairwise_cons.mp h.close).2.imp_of_mem ?_
  intro a b ha _ hclose dispatch' hd'
  obtain ⟨dispatch, hd, _, hd''⟩ := hsame a ha
  rw [hd'', Option.some.injEq] at hd'
  rw [← hd']
  exact hclose dispatch hd

theorem settleAll_opens (n : Nat) (h : Live codec origin sessionId w)
    (hhanded : Handed w.held entries)
    : Opens codec origin Accepts sessionId (Room codec (2 * entries.length + n) w.held)
        (fun _ w' => Room codec (2 * entries.length + n) w.held → Room codec n w'.held)
        w (settleAll codec false entries) := by
  induction entries generalizing w with
  | nil => exact ⟨.refl h, fun hroom => hroom.mono (by simp)⟩
  | cons entry rest ih =>
    have hlength : 2 * (entry :: rest).length + n = 2 * rest.length + n + 2 := by
      rw [length_cons]
      omega
    obtain ⟨dispatch, hd, hstate⟩ := hhanded.inFlight entry mem_cons_self
    unfold settleAll
    cases hclose : dispatch.command.isClose with
    | false =>
      refine opens_bind ((settleInFlight_settles h hd hstate hclose).opens.mono ?_
        (fun _ _ _ hq => hq)) ?_
      . intro _ hroom
        exact hroom.mono (by omega)
      intro restored w₁ hadvanced₁ ⟨hrestored, hsettled⟩
      subst hrestored
      have hroom₁ : Room codec (2 * (entry :: rest).length + n) w.held →
          Room codec (2 * rest.length + n) w₁.held := by
        intro hroom
        rw [hlength] at hroom
        exact hsettled.room _ hroom
      exact (ih hadvanced₁.live (hhanded.tail hsettled.leaves)).mono (fun _ hroom => hroom₁ hroom)
        (fun _ _ _ hq hroom => hq (hroom₁ hroom))
    | true =>
    have hrest : rest = [] := by
      cases rest with
      | nil => rfl
      | cons other rest =>
      have := (pairwise_cons.mp hhanded.close).1 other mem_cons_self dispatch hd
      rw [hclose] at this
      cases this
    subst hrest
    unfold settleInFlight
    have hmatch : ∃ a b, dispatch = { command := .close a b, state := .inFlight } := by
      obtain ⟨command, state⟩ := dispatch
      cases command with
      | close a b => exact ⟨a, b, by rw [← hstate]⟩
      | _ => cases hclose
    obtain ⟨a, b, hdispatch⟩ := hmatch
    have hd' : w.relay.snapshot.dispatches.get? entry.2
        = some { command := .close a b, state := .inFlight } := by
      rw [h.snapshot, ← hdispatch]
      exact hd
    refine Program.lands_bind (Q := fun restored w' => restored = true ∧ w' = { w with
      relay := { w.relay with
        snapshot := w.relay.snapshot.setDispatchState entry.2 .pending } }) ?_ ?_
    . apply lands_get_bind
      rw [hd']
      exact ⟨rfl, rfl⟩
    intro restored w₁ ⟨hrestored, hw₁⟩
    subst hrestored hw₁
    refine (persistClose_opens h hd hclose hstate).mono ?_ ?_ (fun _ hc => hc)
    . intro _ w' ⟨hadvanced, hheld⟩
      refine ⟨hadvanced, ?_⟩
      intro hroom
      rw [hlength] at hroom
      rw [hheld]
      exact (hroom.step (.reclose hd hclose)).mono (by simp only [length_nil]; omega)
    . intro w' ⟨hshut, hno⟩
      refine ⟨hshut, ?_⟩
      intro ⟨hcalm, hroom⟩
      exact hno ⟨hcalm, hroom.mono (by omega)⟩

end Close

section Recover

theorem mem_sortAccepted : entry ∈ sortAccepted entries ↔ entry ∈ entries :=
  (perm_insertionSort acceptedFirst entries).mem_iff

theorem nodup_sortAccepted (h : (entries.map (·.2)).Nodup)
    : ((sortAccepted entries).map (·.2)).Nodup :=
  ((perm_insertionSort acceptedFirst entries).map _).nodup_iff.mpr h

instance : Std.Total acceptedFirst where
  total a b := by
    unfold acceptedFirst
    rcases Nat.lt_trichotomy a.1 b.1 with hlt | heq | hgt
    . exact Or.inl (Or.inl hlt)
    . rcases le_total a.2 b.2 with hle | hle
      . exact Or.inl (Or.inr ⟨heq, hle⟩)
      . exact Or.inr (Or.inr ⟨heq.symm, hle⟩)
    . exact Or.inr (Or.inl hgt)

instance : IsTrans (Nat × String) acceptedFirst where
  trans a b c := by
    unfold acceptedFirst
    rintro (hab | ⟨hab, hab'⟩) (hbc | ⟨hbc, hbc'⟩)
    . exact Or.inl (by omega)
    . exact Or.inl (by omega)
    . exact Or.inl (by omega)
    . exact Or.inr ⟨by omega, le_trans hab' hbc'⟩

theorem sorted_sortAccepted (entries : List (Nat × String))
    : (sortAccepted entries).Pairwise (fun a b => a.1 ≤ b.1) := by
  refine (pairwise_insertionSort acceptedFirst entries).imp ?_
  rintro a b (hlt | ⟨heq, _⟩)
  . exact Nat.le_of_lt hlt
  . exact Nat.le_of_eq heq

theorem length_sortAccepted_le (s : RelaySnapshot) (p : String → RelayDispatchRecord → Bool)
    : (sortAccepted (acceptedWhere s p)).length ≤ s.dispatches.entries.length := by
  unfold sortAccepted acceptedWhere
  rw [length_insertionSort]
  exact Nat.le_trans (length_filterMap_le _ _) (length_filter_le _ _)

theorem Stems.length_le (h : Stems s s')
    : s'.dispatches.entries.length ≤ s.dispatches.entries.length := by
  have hnodup : s'.dispatches.keys.Nodup := by
    unfold BTreeMap.keys
    rw [List.Nodup, pairwise_map]
    exact s'.dispatches.sorted.imp (fun hlt => ne_of_lt hlt)
  have hsubset : s'.dispatches.keys ⊆ s.dispatches.keys := by
    intro id hid
    obtain ⟨entry, hmem, rfl⟩ := mem_map.mp hid
    obtain ⟨dispatch, hd, _⟩ := h _ _ (BTreeMap.mem_entries_iff.mp hmem)
    exact mem_map.mpr ⟨_, BTreeMap.mem_entries_iff.mpr hd, rfl⟩
  have hlength := hnodup.length_le_of_subset hsubset
  unfold BTreeMap.keys at hlength
  rwa [length_map, length_map] at hlength

theorem handed_inFlightCommands (hs : s.Sound)
    (hnone : ∀ id dispatch, s.dispatches.get? id = some dispatch →
      dispatch.command.isCompleteCheckpoint → dispatch.state.isTerminal)
    : Handed s (inFlightCommands s) := by
  have hnodup : ((inFlightCommands s).map (·.2)).Nodup :=
    nodup_sortAccepted (nodup_acceptedWhere s _)
  have hmem : ∀ entry ∈ inFlightCommands s, ∃ dispatch handled,
      s.dispatches.get? entry.2 = some dispatch ∧ dispatch.state = .inFlight ∧
      s.handledCommands.get? entry.2 = some handled ∧ handled.acceptedOrdinal = entry.1 := by
    intro entry hentry
    obtain ⟨dispatch, handled, hd, hp, hh, haccepted⟩ :=
      mem_acceptedWhere.mp (mem_sortAccepted.mp hentry)
    exact ⟨dispatch, handled, hd, by simpa using hp, hh, haccepted⟩
  constructor
  . exact hnodup
  . intro entry hentry
    obtain ⟨dispatch, _, hd, hstate, _⟩ := hmem entry hentry
    exact ⟨dispatch, hd, hstate⟩
  rw [List.Nodup, pairwise_map] at hnodup
  refine (hnodup.and (sorted_sortAccepted _)).imp_of_mem ?_
  intro a b ha hb ⟨hne, hle⟩ dispatch hd
  rw [← Bool.not_eq_true]
  intro hclose
  obtain ⟨dispatch₁, handled₁, hd₁, hstate₁, hh₁, haccepted₁⟩ := hmem a ha
  obtain ⟨dispatch₂, handled₂, hd₂, hstate₂, hh₂, haccepted₂⟩ := hmem b hb
  cases hd.symm.trans hd₁
  have he₁ := ledgerEntry_eq_some.mpr ⟨dispatch, handled₁, hd, hh₁, rfl⟩
  have he₂ := ledgerEntry_eq_some.mpr ⟨dispatch₂, handled₂, hd₂, hh₂, rfl⟩
  have hcomplete := hs.invariant.close_last a.2 _ he₁ hclose
    (by simp [hstate₁, RelayDispatchState.phase]) b.2 _ he₂
    (fun heq => hne heq.symm) (by rw [haccepted₁, haccepted₂]; exact hle)
  have hterminal := hnone b.2 dispatch₂ hd₂ hcomplete
  rw [hstate₂] at hterminal
  cases hterminal

theorem waiting_nonterminalRelayLocal (s : RelaySnapshot)
    : Waiting s.commandOf s (nonterminalRelayLocal s) := by
  intro entry hentry
  obtain ⟨dispatch, _, hd, hp, _⟩ := mem_acceptedWhere.mp (mem_sortAccepted.mp hentry)
  rw [Bool.and_eq_true] at hp
  refine ⟨dispatch, hd, ?_, hp.1, by simpa using hp.2⟩
  unfold commandOf
  rw [hd]
  rfl

theorem noCompletion_of_stems (ha : s.Aligned) (hstems : Stems s s')
    (h : NoCompletion (nonterminalRelayLocal s) s')
    : ∀ id dispatch, s'.dispatches.get? id = some dispatch →
        dispatch.command.isCompleteCheckpoint → dispatch.state.isTerminal := by
  intro id dispatch' hd' hcomplete
  obtain ⟨dispatch, hd, hcommand, hterminal⟩ := hstems id dispatch' hd'
  cases hopen : dispatch.state.isTerminal with
  | true => exact hterminal hopen
  | false =>
  obtain ⟨handled, hh, _⟩ := ha.handled_of_dispatch hd
  have hlocal : dispatch.command.isRelayLocal := by
    rw [hcommand] at hcomplete
    cases hc : dispatch.command <;> simp_all [RelayCommand.isCompleteCheckpoint, RelayCommand.isRelayLocal]
  have hmem : (handled.acceptedOrdinal, id) ∈ nonterminalRelayLocal s := by
    apply mem_sortAccepted.mpr
    apply mem_acceptedWhere.mpr
    exact ⟨dispatch, handled, hd, by simp [hlocal, hopen], hh, rfl⟩
  exact h _ hmem dispatch' hd' hcomplete

theorem recoverNonterminalCommands_opens (n : Nat) (h : Live codec origin sessionId w)
    : Opens codec origin (fun _ _ => False) sessionId
        (Room codec (8 * w.held.dispatches.entries.length + n) w.held ∧ w.held.resumable)
        (fun _ w' => Room codec (8 * w.held.dispatches.entries.length + n) w.held →
          w.held.resumable ∧ Room codec n w'.held)
        w (recoverNonterminalCommands codec) := by
  have hs : w.held.Sound := h.valid.sound
  have hlocals : (nonterminalRelayLocal w.held).length ≤ w.held.dispatches.entries.length :=
    length_sortAccepted_le w.held _
  have hwaiting := waiting_nonterminalRelayLocal w.held
  have hnodup : ((nonterminalRelayLocal w.held).map (·.2)).Nodup :=
    nodup_sortAccepted (nodup_acceptedWhere w.held _)
  unfold recoverNonterminalCommands
  apply Program.lands_get_bind
  rw [h.snapshot]
  refine opens_bind ((finishAll_does w.held.commandOf (4 * w.held.dispatches.entries.length + n) h
    hnodup).opens.mono ?_ (fun _ _ _ hq => hq)) ?_
  . intro _ ⟨hroom, hresumable⟩
    exact ⟨hroom.mono (by omega), hwaiting, hresumable⟩
  intro _ w₁ hadvanced₁ ⟨hnone, hfinish⟩
  have hstems₁ : Stems w.held w₁.held := hadvanced₁.evolves.stems h.valid
  have hlen₁ := hstems₁.length_le
  have hbarriers : (ownerlessBarriers w₁.held).length ≤ w₁.held.dispatches.entries.length :=
    length_sortAccepted_le w₁.held _
  have hroom₁ : Room codec (8 * w.held.dispatches.entries.length + n) w.held →
      Room codec (4 * w.held.dispatches.entries.length + n) w₁.held ∧ w.held.resumable := by
    intro hroom
    obtain ⟨hroom', hdesk⟩ := hfinish (hroom.mono (by omega)) hwaiting
    refine ⟨hroom', ?_⟩
    unfold resumable
    rw [hdesk]
    rfl
  apply Program.lands_get_bind
  rw [hadvanced₁.live.snapshot]
  refine opens_bind ((interruptAll_does (2 * w.held.dispatches.entries.length + n)
    hadvanced₁.live ?_).opens.mono ?_ (fun _ _ _ hq => hq)) ?_
  . intro entry hentry
    obtain ⟨dispatch, _, hd, _⟩ := mem_acceptedWhere.mp (mem_sortAccepted.mp hentry)
    exact ⟨dispatch, hd⟩
  . intro _ ⟨hroom, _⟩
    exact (hroom₁ hroom).1.mono (by omega)
  intro _ w₂ hadvanced₂ hinterrupted
  have hstems₂ : Stems w₁.held w₂.held := hadvanced₂.evolves.stems hadvanced₁.live.valid
  have hlen₂ := hstems₂.length_le
  have hflights : (inFlightCommands w₂.held).length ≤ w₂.held.dispatches.entries.length :=
    length_sortAccepted_le w₂.held _
  have hroom₂ : Room codec (8 * w.held.dispatches.entries.length + n) w.held →
      Room codec (2 * w.held.dispatches.entries.length + n) w₂.held := by
    intro hroom
    exact hinterrupted ((hroom₁ hroom).1.mono (by omega))
  apply Program.lands_get_bind
  rw [hadvanced₂.live.snapshot]
  refine Opens.mono (settleAll_opens n hadvanced₂.live (handed_inFlightCommands
    hadvanced₂.live.valid.sound ?_)) ?_ ?_
  . exact noCompletion_of_stems hs.aligned (hstems₁.trans hstems₂) (hnone.stems hstems₂)
  . intro _ ⟨hroom, _⟩
    exact (hroom₂ hroom).mono (by omega)
  . intro _ w' _ hq hroom
    exact ⟨(hroom₁ hroom).2, hq ((hroom₂ hroom).mono (by omega))⟩

theorem unqueuedCommands_eq_nil (hs : s.Sound) (now : Int) : unqueuedCommands s now = [] := by
  unfold unqueuedCommands
  rw [filterMap_eq_nil_iff]
  rintro ⟨id, dispatch⟩ hmem
  have hd := BTreeMap.mem_entries_iff.mp hmem
  dsimp only
  split
  . rfl
  rename_i hno
  split
  next handled payload hh hpayload =>
    simp only [Bool.or_eq_true, decide_eq_true_eq, not_or, ne_eq, Decidable.not_not] at hno
    obtain ⟨hqueued, hany⟩ := hno
    have hentry : dispatch.command.isQueueEntry := by
      cases hc : dispatch.command <;>
        simp_all [StoredQueuedRelayPayload.ofCommand, RelayCommand.isQueueEntry]
    have he := ledgerEntry_eq_some.mpr ⟨dispatch, handled, hd, hh, rfl⟩
    have hin := hs.invariant.queue_complete id _ he (by rw [hqueued]; rfl) hentry
    rw [mem_map] at hin
    obtain ⟨q, hq, hqid⟩ := hin
    have hq' : q ∈ s.queuedPrompts.map (fun queued => (queued.commandId, queued.payload.command)) :=
      hq
    obtain ⟨queued, hmem', rfl⟩ := mem_map.mp hq'
    refine absurd ?_ hany
    rw [any_eq_true]
    exact ⟨queued, hmem', by simpa using hqid⟩
  . rfl

theorem adoptUnqueuedQueueCommands_does {P : Prop} (h : Live codec origin sessionId w)
    : Does codec origin Accepts sessionId P (fun _ w' => w'.chronicle = w.chronicle) w
        (adoptUnqueuedQueueCommands codec) := by
  unfold adoptUnqueuedQueueCommands
  apply does_epochMillis_bind h
  intro now w' hadvanced hchronicle _
  apply does_get_bind
  rw [hadvanced.live.snapshot]
  have hnil : unqueuedCommands w'.held now = [] :=
    unqueuedCommands_eq_nil hadvanced.live.valid.sound now
  simp only [hnil, isEmpty_nil, ↓reduceIte]
  exact does_pure hadvanced.live hchronicle

end Recover

section Open

variable {base : RelaySnapshot}

def OpenRoom (codec : RelayCodec) (s : RelaySnapshot) : Prop :=
  Room codec (8 * s.dispatches.entries.length + 1) s

theorem openRelay_opens (h : Restartable codec origin sessionId base w)
    (hid : isIdentifier sessionId)
    : Opens codec origin (fun _ _ => False) sessionId
        (Covered origin base w ∧ OpenRoom codec w.held ∧ w.held.resumable)
        (fun _ _ => Covered origin base w ∧ (OpenRoom codec w.held → w.held.resumable))
        w (openRelay codec sessionId) := by
  unfold openRelay
  have hvalid : validateIdentifier sessionId "session ID" = .ok () := by
    unfold validateIdentifier
    rw [if_pos hid]
  rw [hvalid]
  apply Program.lands_pure_bind
  refine opens_bind ((loadRelay_opens h).mono ?_ (fun _ _ _ hq => hq)) ?_
  . intro _ ⟨hcovered, hroom, _⟩
    exact ⟨hcovered, hroom.fits⟩
  intro _ w₁ hadvanced₁ ⟨hchronicle₁, hcovered⟩
  refine opens_bind (adoptUnqueuedQueueCommands_does hadvanced₁.live).opens ?_
  intro _ w₂ hadvanced₂ hchronicle₂
  have hheld : w₂.held = w.held := congrArg Chronicle.held (hchronicle₂.trans hchronicle₁)
  refine opens_bind ((recoverNonterminalCommands_opens 1 hadvanced₂.live).mono ?_
    (fun _ _ _ hq => hq)) ?_
  . intro _ ⟨_, hroom, hresumable⟩
    rw [hheld]
    exact ⟨hroom, hresumable⟩
  intro _ w₃ hadvanced₃ hrecovered
  rw [hheld] at hrecovered
  refine opens_bind ((promoteNextQueuedCommand_does hadvanced₃.live).opens.mono ?_
    (fun _ _ _ hq => hq)) ?_
  . intro _ ⟨_, hroom, _⟩
    exact (hrecovered hroom).2
  intro _ w₄ hadvanced₄ _
  exact ⟨.refl hadvanced₄.live, hcovered, fun hroom => (hrecovered hroom).1⟩

end Open

end Hel
