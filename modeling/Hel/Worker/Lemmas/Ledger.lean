import Hel.Worker.Impl.Codec
import Hel.Worker.Ledger

/-!
This module contains the refinement of the ledger by the snapshot of the relay.
-/

namespace Hel

variable {state : RelayDispatchState} {id : String} {dispatch : RelayDispatchRecord}

def RelayDispatchState.phase : RelayDispatchState → Phase
  | .queued => .queued
  | .pending | .inFlight => .started
  | .completed | .rejected | .interrupted => .settled

theorem RelayDispatchState.phase_of_isTerminal (h : state.isTerminal) : state.phase = .settled := by
  cases state <;> simp_all [isTerminal, phase]

theorem RelayDispatchState.phase_eq_settled : state.phase = .settled ↔ state.isTerminal := by
  cases state <;> simp [isTerminal, phase]

theorem RelayDispatchState.phase_eq_started : state.phase = .started ↔ state.inProgress := by
  cases state <;> simp [inProgress, phase]

theorem RelayDispatchState.phase_eq_queued : state.phase = .queued ↔ state = .queued := by
  cases state <;> simp [phase]

theorem RelayDispatchState.not_isTerminal_of_inProgress (h : state.inProgress)
    : state.isTerminal = false := by
  cases state <;> simp_all [inProgress, isTerminal]

namespace RelaySnapshot

def ledgerEntry (s : RelaySnapshot) (id : String) : Option LedgerEntry :=
  (s.dispatches.get? id).bind (fun dispatch =>
    (s.handledCommands.get? id).map (fun handled =>
      { command := dispatch.command
        phase := dispatch.state.phase
        accepted := handled.acceptedOrdinal }))

def ledger (s : RelaySnapshot) : Ledger where
  entry := s.ledgerEntry
  queue := s.queuedPrompts.map (fun queued => (queued.commandId, queued.payload.command))
  active := s.activePromptId
  execution := s.execution
  barrier := s.checkpointBarrier
  latest := s.latestOrdinal

structure Aligned (s : RelaySnapshot) : Prop where
  commands : ∀ id, (s.dispatches.get? id).map (·.command) = (s.handledCommands.get? id).map (·.command)
  terminal : ∀ id dispatch handled, s.dispatches.get? id = some dispatch →
    s.handledCommands.get? id = some handled →
    (handled.terminalOrdinal.isSome ↔ dispatch.state.isTerminal)
  identifiers : ∀ id handled, s.handledCommands.get? id = some handled → isIdentifier id

structure Sound (s : RelaySnapshot) : Prop where
  aligned : s.Aligned
  invariant : s.ledger.Invariant

section Aligned

variable {s s' : RelaySnapshot}

theorem Aligned.congr (h : s.Aligned) (hd : s'.dispatches = s.dispatches)
    (hh : s'.handledCommands = s.handledCommands) : s'.Aligned := by
  constructor
  . rw [hd, hh]
    exact h.commands
  . rw [hd, hh]
    exact h.terminal
  . rw [hh]
    exact h.identifiers

theorem Aligned.handled_of_dispatch (h : s.Aligned) (hd : s.dispatches.get? id = some dispatch)
    : ∃ handled, s.handledCommands.get? id = some handled ∧ handled.command = dispatch.command := by
  have hcommands := h.commands id
  rw [hd] at hcommands
  cases hh : s.handledCommands.get? id with
  | none => simp [hh] at hcommands
  | some handled =>
    simp only [hh, Option.map_some, Option.some.injEq] at hcommands
    exact ⟨handled, rfl, hcommands.symm⟩

theorem Aligned.dispatch_of_handled (h : s.Aligned) {handled : HandledRelayCommand}
    (hh : s.handledCommands.get? id = some handled)
    : ∃ dispatch, s.dispatches.get? id = some dispatch ∧ dispatch.command = handled.command := by
  have hcommands := h.commands id
  rw [hh] at hcommands
  cases hd : s.dispatches.get? id with
  | none => simp [hd] at hcommands
  | some dispatch =>
    simp only [hd, Option.map_some, Option.some.injEq] at hcommands
    exact ⟨dispatch, rfl, hcommands⟩

theorem Aligned.identifier_of_dispatch (h : s.Aligned) (hd : s.dispatches.get? id = some dispatch)
    : isIdentifier id := by
  obtain ⟨handled, hh, _⟩ := h.handled_of_dispatch hd
  exact h.identifiers id handled hh

theorem ledgerEntry_eq_some {e : LedgerEntry}
    : s.ledgerEntry id = some e
        ↔ ∃ dispatch handled,
            s.dispatches.get? id = some dispatch ∧ s.handledCommands.get? id = some handled ∧
            e = { command := dispatch.command
                  phase := dispatch.state.phase
                  accepted := handled.acceptedOrdinal } := by
  simp only [ledgerEntry, Option.bind_eq_some_iff, Option.map_eq_some_iff]
  grind

theorem Aligned.entry_of_dispatch (h : s.Aligned) (hd : s.dispatches.get? id = some dispatch)
    : ∃ n, s.ledger.entry id
        = some { command := dispatch.command, phase := dispatch.state.phase, accepted := n } := by
  obtain ⟨handled, hh, _⟩ := h.handled_of_dispatch hd
  refine ⟨handled.acceptedOrdinal, ?_⟩
  show s.ledgerEntry id = _
  rw [ledgerEntry_eq_some]
  exact ⟨dispatch, handled, hd, hh, rfl⟩

theorem dispatch_of_entry {e : LedgerEntry} (h : s.ledger.entry id = some e)
    : ∃ dispatch, s.dispatches.get? id = some dispatch ∧ dispatch.command = e.command ∧
        dispatch.state.phase = e.phase := by
  obtain ⟨dispatch, handled, hd, _, rfl⟩ := ledgerEntry_eq_some.mp h
  exact ⟨dispatch, hd, rfl, rfl⟩

theorem ledgerEntry_congr (hd : s'.dispatches = s.dispatches)
    (hh : s'.handledCommands = s.handledCommands) : s'.ledgerEntry = s.ledgerEntry := by
  funext id
  unfold ledgerEntry
  rw [hd, hh]

end Aligned

section Terminalize

variable {s : RelaySnapshot} {state : RelayDispatchState}

theorem get?_dispatches_setDispatchState (s : RelaySnapshot) (id : String)
    (state : RelayDispatchState) (id' : String)
    : (s.setDispatchState id state).dispatches.get? id'
        = if id' = id then (s.dispatches.get? id').map ({ · with state := state })
          else s.dispatches.get? id' := by
  unfold setDispatchState
  rw [BTreeMap.get?_modify]

theorem get?_dispatches_terminalize (s : RelaySnapshot) (id : String) (state : RelayDispatchState)
    (ordinal : Nat) (id' : String)
    : (s.terminalize id state ordinal).dispatches.get? id'
        = if id' = id then (s.dispatches.get? id').map ({ · with state := state })
          else s.dispatches.get? id' :=
  get?_dispatches_setDispatchState s id state id'

theorem get?_handledCommands_terminalize (s : RelaySnapshot) (id : String)
    (state : RelayDispatchState) (ordinal : Nat) (id' : String)
    : (s.terminalize id state ordinal).handledCommands.get? id'
        = if id' = id then (s.handledCommands.get? id').map ({ · with terminalOrdinal := some ordinal })
          else s.handledCommands.get? id' := by
  unfold terminalize setTerminalOrdinal
  rw [BTreeMap.get?_modify]
  rfl

theorem Aligned.setDispatchState (h : s.Aligned) (hd : s.dispatches.get? id = some dispatch)
    (hstate : state.isTerminal = dispatch.state.isTerminal)
    : (s.setDispatchState id state).Aligned := by
  constructor
  . intro id'
    rw [get?_dispatches_setDispatchState]
    have := h.commands id'
    split
    . rw [Option.map_map]
      exact this
    . exact this
  . intro id' dispatch' handled hd' hh
    rw [get?_dispatches_setDispatchState] at hd'
    split at hd'
    next heq =>
      rw [heq, hd, Option.map_some, Option.some.injEq] at hd'
      rw [← hd', hstate]
      exact h.terminal id' dispatch handled (heq ▸ hd) hh
    next hne => exact h.terminal id' dispatch' handled hd' hh
  . exact h.identifiers

theorem ledgerEntry_setDispatchState (id : String) (id' : String)
    : (s.setDispatchState id state).ledgerEntry id'
        = if id' = id then (s.ledgerEntry id').map ({ · with phase := state.phase })
          else s.ledgerEntry id' := by
  unfold ledgerEntry
  rw [get?_dispatches_setDispatchState]
  show (_ : Option RelayDispatchRecord).bind (fun _ => (s.handledCommands.get? id').map _) = _
  by_cases heq : id' = id
  . simp only [heq, ↓reduceIte]
    cases s.dispatches.get? id <;> cases s.handledCommands.get? id <;> simp
  . simp only [heq, ↓reduceIte]

end Terminalize

end RelaySnapshot

end Hel
