import Hel.Worker.Lemmas.Operation

/-!
This module contains the steps that a relay takes on its own account to settle the commands it has
accepted, and the room that their snapshots need.
-/

namespace Hel

def prune (s : RelaySnapshot) : RelaySnapshot :=
  (prunableCommandIds s s.retainedThrough).foldl forgetCommand s

def Settling (s : RelaySnapshot) : RelayObservation → Prop
  | .notice text => ∃ id dispatch, s.dispatches.get? id = some dispatch ∧
      dispatch.command = .recordNotice text
  | .commandStarted id _ => (s.dispatches.get? id).isSome
  | .commandCompleted id outcome => ∃ dispatch, s.dispatches.get? id = some dispatch ∧
      (outcome = relayLocalOutcome s dispatch.command ∨
        ∃ shell, dispatch.command = .runUserShell shell ∧
          outcome = .userShell
            (RelaySnapshot.terminatedShell .interrupted shell INTERRUPTED_SHELL))
  | .commandInterrupted id kind message => ∃ dispatch, s.dispatches.get? id = some dispatch ∧
      dispatch.command.kind = kind ∧ (message = OWNERLESS_BARRIER ∨ message = INTERRUPTED_COMMAND)
  | _ => False

inductive SettleStep (codec : RelayCodec) : RelaySnapshot → RelaySnapshot → Prop where
  | record {s s' : RelaySnapshot} {event : RelayEvent} :
      Genuine codec event → Settling s event.observation →
      applyRelayEvent codec s event = .ok s' → SettleStep codec s s'
  | prune (s : RelaySnapshot) : SettleStep codec s (prune s)
  | reclose {s : RelaySnapshot} {id : String} {dispatch : RelayDispatchRecord} :
      s.dispatches.get? id = some dispatch → dispatch.command.isClose →
      SettleStep codec s (s.setDispatchState id .pending)

-- Every snapshot within `n` such steps is small enough to be written.
def Room (codec : RelayCodec) : Nat → RelaySnapshot → Prop
  | 0, s => Fits codec s ∧ s.latestOrdinal < U64_MAX
  | n + 1, s => (Fits codec s ∧ s.latestOrdinal < U64_MAX) ∧
      ∀ s', SettleStep codec s s' → Room codec n s'

section Room

variable {codec : RelayCodec} {s s' : RelaySnapshot} {n : Nat}

theorem Room.fits (h : Room codec n s) : Fits codec s := by
  cases n with
  | zero => exact h.1
  | succ n => exact h.1.1

theorem Room.ordinal_lt (h : Room codec n s) : s.latestOrdinal < U64_MAX := by
  cases n with
  | zero => exact h.2
  | succ n => exact h.1.2

theorem Room.step (h : Room codec (n + 1) s) (hstep : SettleStep codec s s') : Room codec n s' :=
  h.2 s' hstep

theorem Room.pred (h : Room codec (n + 1) s) : Room codec n s := by
  induction n generalizing s with
  | zero => exact h.1
  | succ n ih => exact ⟨h.1, fun s' hstep => ih (h.2 s' hstep)⟩

theorem Room.mono {m : Nat} (h : Room codec n s) (hle : m ≤ n) : Room codec m s := by
  induction n with
  | zero =>
    rw [Nat.le_zero.mp hle]
    exact h
  | succ n ih =>
    by_cases heq : m = n + 1
    . rw [heq]
      exact h
    . exact ih h.pred (by omega)

end Room

section Prune

variable {codec : RelayCodec} {origin : Origin} {Accepts : RelaySnapshot → RelayCommand → Prop}
  {s : RelaySnapshot}

theorem mem_prunableCommandIds {through : Nat} {id : String} (h : id ∈ prunableCommandIds s through)
    : ∃ handled, s.handledCommands.get? id = some handled ∧ handled.terminalOrdinal.isSome := by
  unfold prunableCommandIds at h
  rw [List.mem_map] at h
  obtain ⟨⟨key, handled⟩, hmem, rfl⟩ := h
  rw [List.mem_filter] at hmem
  refine ⟨handled, BTreeMap.mem_entries_iff.mp hmem.1, ?_⟩
  have hterminal := hmem.2
  split at hterminal
  next terminal heq =>
    rw [heq]
    rfl
  next => cases hterminal

theorem nodup_prunableCommandIds (s : RelaySnapshot) (through : Nat)
    : (prunableCommandIds s through).Nodup := by
  unfold prunableCommandIds
  have hkeys : (s.handledCommands.entries.map (·.1)).Nodup := by
    rw [List.Nodup, List.pairwise_map]
    exact s.handledCommands.sorted.imp (fun hlt => ne_of_lt hlt)
  exact hkeys.sublist (List.filter_sublist.map _)

theorem forget_evolves {c : Chronicle} {ids : List String} (hnodup : ids.Nodup)
    (hterminal : ∀ id ∈ ids, ∃ handled,
      c.held.handledCommands.get? id = some handled ∧ handled.terminalOrdinal.isSome)
    : Evolves codec origin Accepts c { c with held := ids.foldl forgetCommand c.held } := by
  induction ids generalizing c with
  | nil => exact .refl
  | cons id rest ih =>
    rw [List.nodup_cons] at hnodup
    obtain ⟨handled, hget, hsome⟩ := hterminal id (by simp)
    refine .head (.forget hget hsome) (ih (c := { c with held := forgetCommand c.held id }) hnodup.2 ?_)
    intro other hmem
    obtain ⟨handled', hget', hsome'⟩ := hterminal other (List.mem_cons_of_mem _ hmem)
    refine ⟨handled', ?_, hsome'⟩
    have hne : other ≠ id := fun heq => hnodup.1 (heq ▸ hmem)
    simp only [forgetCommand, BTreeMap.get?_remove, hne, ↓reduceIte]
    exact hget'

theorem foldl_forgetCommand_frame (s : RelaySnapshot) (ids : List String)
    : ∃ handled dispatches, ids.foldl forgetCommand s
        = { s with handledCommands := handled, dispatches := dispatches } ∧
        ∀ id, dispatches.get? id = if id ∈ ids then none else s.dispatches.get? id := by
  induction ids generalizing s with
  | nil => exact ⟨s.handledCommands, s.dispatches, rfl, fun id => by simp⟩
  | cons id rest ih =>
    obtain ⟨handled, dispatches, heq, hget⟩ := ih (forgetCommand s id)
    refine ⟨handled, dispatches, heq, ?_⟩
    intro id'
    rw [hget, forgetCommand, BTreeMap.get?_remove]
    by_cases hmem : id' ∈ rest
    . simp [hmem]
    . simp [hmem]

theorem SettleStep.latest_le {s' : RelaySnapshot} (h : SettleStep codec s s')
    : s'.latestOrdinal ≤ s.latestOrdinal + 1 := by
  cases h with
  | record _ _ happly =>
    obtain ⟨hordinal, hlatest, _⟩ := ordinal_of_applyRelayEvent happly
    omega
  | prune =>
    obtain ⟨handled, dispatches, heq, _⟩ :=
      foldl_forgetCommand_frame s (prunableCommandIds s s.retainedThrough)
    unfold Hel.prune
    rw [heq]
    exact Nat.le_succ _
  | reclose => exact Nat.le_succ _

theorem prune_frame (h : s.Aligned)
    : ∃ handled dispatches, prune s
        = { s with handledCommands := handled, dispatches := dispatches } ∧
        (∀ id dispatch, dispatches.get? id = some dispatch → s.dispatches.get? id = some dispatch) ∧
        ∀ id dispatch, s.dispatches.get? id = some dispatch → dispatch.state.isTerminal = false →
          dispatches.get? id = some dispatch := by
  obtain ⟨handled, dispatches, heq, hget⟩ :=
    foldl_forgetCommand_frame s (prunableCommandIds s s.retainedThrough)
  refine ⟨handled, dispatches, heq, ?_, ?_⟩
  . intro id dispatch hd
    rw [hget] at hd
    split at hd
    . cases hd
    exact hd
  intro id dispatch hd hopen
  rw [hget]
  split
  next hmem =>
    obtain ⟨handled, hh, hsome⟩ := mem_prunableCommandIds hmem
    rw [(h.terminal id dispatch handled hd hh).mp hsome] at hopen
    cases hopen
  next => exact hd

end Prune

end Hel
