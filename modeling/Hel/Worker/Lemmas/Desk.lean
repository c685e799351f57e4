import Hel.Worker.Impl.Open
import Hel.Worker.Lemmas.Effect

/-!
This module contains the part of a relay that its own commands act on, the queue, the checkpoint
barrier and the recovery floor, and when such a command can still be completed.
-/

namespace Hel

open RelayCommand

variable {removed : List String} {c : RelayCommand} {other : String}

structure Desk where
  queue : List String
  barrier : Option String
  ready : Option Nat
  floor : Nat
  deriving DecidableEq

namespace Desk

def finish (d : Desk) : RelayCommand → Option Desk
  | .removeQueuedPrompt target =>
    if target ∈ d.queue then some { d with queue := d.queue.filter (· ≠ target) } else none
  | .clearQueuedPrompts => some { d with queue := [] }
  | .completeCheckpoint barrier =>
    if d.barrier = some barrier then
      d.ready.map (fun cut => { d with barrier := none, ready := none, floor := cut })
    else
      none
  | .releaseCheckpoint barrier =>
    if d.barrier = some barrier then
      d.ready.map (fun _ => { d with barrier := none, ready := none })
    else
      none
  | .advanceRecoveryFloor through =>
    if d.floor ≤ through.ordinal then some { d with floor := through.ordinal } else none
  | _ => some d

def finishAll (d : Desk) : List RelayCommand → Option Desk
  | [] => some d
  | command :: rest => (d.finish command).bind (finishAll · rest)

end Desk

namespace RelaySnapshot

def desk (s : RelaySnapshot) : Desk where
  queue := s.queuedPrompts.map (·.commandId)
  barrier := s.checkpointBarrier
  ready := s.checkpointReadyThrough
  floor := s.recoveryFloorOrdinal

def commandOf (s : RelaySnapshot) (id : String) : Option RelayCommand :=
  (s.dispatches.get? id).map (·.command)

def resumable (s : RelaySnapshot) : Bool :=
  (s.desk.finishAll ((nonterminalRelayLocal s).filterMap (s.commandOf ·.2))).isSome

variable {s s' : RelaySnapshot} {id : String} {ordinal : Nat} {dispatch : RelayDispatchRecord}

theorem desk_barrier : s.desk.barrier = s.checkpointBarrier := rfl

theorem desk_ready : s.desk.ready = s.checkpointReadyThrough := rfl

theorem desk_terminalize (state : RelayDispatchState)
    : (s.terminalize id state ordinal).desk = s.desk := rfl

theorem desk_clearBarrier
    : s.clearBarrier.desk = { s.desk with barrier := none, ready := none } := rfl

theorem desk_setFloor (floor : Nat) (digest : String)
    : { s with recoveryFloorOrdinal := floor, recoveryFloorDigest := digest }.desk
        = { s.desk with floor := floor } := rfl

def Awaiting (s : RelaySnapshot) (id : String) : Prop :=
  ∃ dispatch, s.dispatches.get? id = some dispatch ∧ dispatch.command.isQueueEntry ∧
    dispatch.state = .queued ∧ s.handledCommands.contains id

theorem Awaiting.terminalize (h : s.Awaiting other) (hne : other ≠ id) (state : RelayDispatchState)
    : (s.terminalize id state ordinal).Awaiting other := by
  obtain ⟨dispatch, hd, hentry, hstate, hhandled⟩ := h
  refine ⟨dispatch, ?_, hentry, hstate, ?_⟩
  . rw [get?_dispatches_terminalize]
    simp only [hne, ↓reduceIte]
    exact hd
  unfold BTreeMap.contains at hhandled ⊢
  rw [get?_handledCommands_terminalize]
  simp only [hne, ↓reduceIte]
  exact hhandled

theorem terminalizeRemovedPrompts_eq_ok (hnodup : removed.Nodup) (h : ∀ id ∈ removed, s.Awaiting id)
    : ∃ s', s.terminalizeRemovedPrompts ordinal removed = .ok s' := by
  induction removed generalizing s with
  | nil => exact ⟨s, rfl⟩
  | cons id rest ih =>
    rw [List.nodup_cons] at hnodup
    obtain ⟨dispatch, hd, hentry, hstate, hhandled⟩ := h id (by simp)
    unfold terminalizeRemovedPrompts
    simp only [hd, hentry, hstate, hhandled]
    apply ih hnodup.2
    intro other hmem
    apply (h other (List.mem_cons_of_mem _ hmem)).terminalize
    exact fun heq => hnodup.1 (heq ▸ hmem)

theorem Sound.queued_of_mem (hs : s.Sound) (h : id ∈ s.desk.queue) : s.Awaiting id := by
  unfold desk at h
  rw [List.mem_map] at h
  obtain ⟨queued, hmem, rfl⟩ := h
  have hq : (queued.commandId, queued.payload.command) ∈ s.ledger.queue := by
    show _ ∈ s.queuedPrompts.map _
    rw [List.mem_map]
    exact ⟨queued, hmem, rfl⟩
  obtain ⟨hentry, n, hn⟩ := hs.invariant.queue_sound _ hq
  obtain ⟨dispatch, handled, hd, hh, heq⟩ := ledgerEntry_eq_some.mp hn
  rw [LedgerEntry.mk.injEq] at heq
  refine ⟨dispatch, hd, ?_, ?_, ?_⟩
  . rw [← heq.1]
    exact hentry
  . exact RelayDispatchState.phase_eq_queued.mp heq.2.1.symm
  unfold BTreeMap.contains
  rw [hh]
  rfl

theorem Sound.removePrompts_eq_ok (hs : s.Sound) (hid : id ∉ s.desk.queue) (hnodup : removed.Nodup)
    (hremoved : ∀ other ∈ removed, other ∈ s.desk.queue)
    : ∃ s', (s.terminalize id .completed ordinal).removePrompts ordinal removed = .ok s' ∧
        s'.desk = { s.desk with queue := s.desk.queue.filter (· ∉ removed) } := by
  have hqueued : ∀ other ∈ removed, (s.terminalize id .completed ordinal).Awaiting other := by
    intro other hmem
    apply (hs.queued_of_mem (hremoved other hmem)).terminalize
    exact fun heq => hid (heq ▸ hremoved other hmem)
  obtain ⟨t, ht⟩ := terminalizeRemovedPrompts_eq_ok hnodup hqueued
  obtain ⟨_, ⟨_, _, hframe⟩, _⟩ := terminalizeRemovedPrompts_spec ht
  refine ⟨t.removeQueued removed, ?_, ?_⟩
  . unfold RelaySnapshot.removePrompts
    rw [ht]
  rw [hframe]
  simp only [desk, removeQueued, Desk.mk.injEq]
  refine ⟨?_, rfl, rfl, rfl⟩
  rw [(terminalize_frame _ _ _ _).2.2.1, List.filter_map]
  rfl

theorem Sound.not_mem_queue (hs : s.Sound) (hd : s.dispatches.get? id = some dispatch)
    (hqueue : dispatch.command.isQueueEntry = false) : id ∉ s.desk.queue := by
  intro hmem
  obtain ⟨dispatch', hd', hentry, _⟩ := hs.queued_of_mem hmem
  cases hd.symm.trans hd'
  rw [hqueue] at hentry
  cases hentry

def Foretells (finished : Option Desk) (result : Except String RelaySnapshot) : Prop :=
  (∀ d, finished = some d → ∃ s', result = .ok s' ∧ s'.desk = d) ∧
    (finished = none → ∃ e, result = .error e)

theorem Sound.completeRemoval_local (hs : s.Sound) (hid : id ∉ s.desk.queue) (target : String)
    : Foretells (s.desk.finish (.removeQueuedPrompt target))
        ((s.terminalize id .completed ordinal).completeRemoval ordinal target
          (if s.queuedPrompts.any (·.commandId = target) then [target] else [])) := by
  have hany : s.queuedPrompts.any (·.commandId = target) = decide (target ∈ s.desk.queue) := by
    rw [Bool.eq_iff_iff, decide_eq_true_eq, List.any_eq_true]
    unfold desk
    rw [List.mem_map]
    simp only [decide_eq_true_eq]
  unfold Foretells completeRemoval Desk.finish
  simp only [terminalize_frame, hany]
  by_cases hmem : target ∈ s.desk.queue
  . simp only [hmem, decide_true, ↓reduceIte, Option.some.injEq, ne_eq, not_true_eq_false,
      reduceCtorEq, false_implies, and_true]
    intro d hd
    obtain ⟨s', hs', hdesk⟩ := hs.removePrompts_eq_ok hid
      (List.nodup_singleton target) (by simpa using hmem)
    refine ⟨s', hs', ?_⟩
    rw [hdesk, ← hd]
    simp
  . simp [hmem]

theorem Sound.completeClear_local (hs : s.Sound) (hid : id ∉ s.desk.queue)
    : ∃ s', (s.terminalize id .completed ordinal).completeClear ordinal
          (s.queuedPrompts.map (·.commandId)) = .ok s' ∧
        s'.desk = { s.desk with queue := [] } := by
  unfold completeClear
  simp only [terminalize_frame, ne_eq, not_true_eq_false, ↓reduceIte]
  obtain ⟨s', hs', hdesk⟩ := hs.removePrompts_eq_ok hid hs.queue_nodup
    (fun other hmem => hmem)
  refine ⟨s', hs', ?_⟩
  rw [hdesk, Desk.mk.injEq]
  refine ⟨?_, rfl, rfl, rfl⟩
  rw [List.filter_eq_nil_iff]
  intro other hmem hnot
  simp only [decide_eq_true_eq] at hnot
  exact hnot hmem

theorem completeBarrier_local (barrier : String)
    (hready : ∀ n, s.checkpointReadyThrough = some n → s.checkpointReadyDigest.isSome)
    : Foretells (s.desk.finish (.completeCheckpoint barrier))
        ((s.terminalize id .completed ordinal).completeBarrier ordinal barrier) := by
  unfold Foretells completeBarrier Desk.finish
  simp only [terminalize_frame]
  by_cases heq : s.checkpointBarrier = some barrier
  . simp only [desk_barrier, heq, ↓reduceIte, desk_ready, ne_eq, not_true_eq_false]
    cases hn : s.checkpointReadyThrough with
    | none => simp
    | some n =>
    obtain ⟨digest, hd⟩ := Option.isSome_iff_exists.mp (hready n hn)
    simp only [hd, Option.map_some, Option.some.injEq, reduceCtorEq, false_implies, and_true]
    intro d hd
    refine ⟨_, rfl, ?_⟩
    rw [desk_terminalize, desk_setFloor, desk_clearBarrier, desk_terminalize]
    exact hd
  . simp [desk_barrier, heq]

theorem releaseBarrier_local (barrier : String)
    : Foretells (s.desk.finish (.releaseCheckpoint barrier))
        ((s.terminalize id .completed ordinal).releaseBarrier ordinal barrier) := by
  unfold Foretells releaseBarrier Desk.finish
  simp only [terminalize_frame]
  by_cases heq : s.checkpointBarrier = some barrier
  . simp only [desk_barrier, heq, ↓reduceIte, desk_ready, ne_eq, not_true_eq_false]
    cases hn : s.checkpointReadyThrough with
    | none => simp
    | some n =>
    simp only [Option.map_some, Option.some.injEq, reduceCtorEq, false_implies, and_true]
    intro d hd
    refine ⟨_, rfl, ?_⟩
    rw [desk_terminalize, desk_clearBarrier, desk_terminalize]
    exact hd
  . simp [desk_barrier, heq]

theorem not_isQueueEntry_of_isRelayLocal (h : c.isRelayLocal) : c.isQueueEntry = false := by
  cases c <;> simp_all [isRelayLocal, isQueueEntry]

theorem Sound.completeCommand_local (hs : s.Sound)
    (hready : ∀ n, s.checkpointReadyThrough = some n → s.checkpointReadyDigest.isSome)
    (hd : s.dispatches.get? id = some dispatch) (hlocal : dispatch.command.isRelayLocal)
    : Foretells (s.desk.finish dispatch.command)
        (s.completeCommand ordinal id (relayLocalOutcome s dispatch.command)) := by
  obtain ⟨handled, hh, _⟩ := hs.aligned.handled_of_dispatch hd
  have hcontains : s.handledCommands.contains id := by
    unfold BTreeMap.contains
    rw [hh]
    rfl
  unfold RelaySnapshot.completeCommand Foretells
  simp only [hd, hcontains, Bool.not_true, Bool.false_eq_true, ↓reduceIte]
  have hid := hs.not_mem_queue hd (not_isQueueEntry_of_isRelayLocal hlocal)
  cases hc : dispatch.command with
  | removeQueuedPrompt target => exact hs.completeRemoval_local hid target
  | clearQueuedPrompts =>
    obtain ⟨s', hs', hdesk⟩ := hs.completeClear_local hid
    refine ⟨?_, fun hnone => by cases hnone⟩
    intro d hd
    simp only [Desk.finish, Option.some.injEq] at hd
    exact ⟨s', hs', hdesk.trans hd⟩
  | completeCheckpoint barrier => exact completeBarrier_local barrier hready
  | releaseCheckpoint barrier => exact releaseBarrier_local barrier
  | advanceRecoveryFloor through =>
    simp only [RelaySnapshot.completeOutcome, relayLocalOutcome, advanceFloor, Desk.finish]
    have hfloor : s.desk.floor = s.recoveryFloorOrdinal := rfl
    have hfloor' : (s.terminalize id .completed ordinal).recoveryFloorOrdinal
        = s.recoveryFloorOrdinal := rfl
    rw [hfloor, hfloor']
    by_cases hle : s.recoveryFloorOrdinal ≤ through.ordinal
    . have hlt : ¬ through.ordinal < s.recoveryFloorOrdinal := by omega
      simp only [hle, ↓reduceIte, Option.some.injEq, hlt, reduceCtorEq, false_implies, and_true]
      intro d hd
      refine ⟨_, rfl, ?_⟩
      rw [desk_setFloor, desk_terminalize]
      exact hd
    . have hlt : through.ordinal < s.recoveryFloorOrdinal := by omega
      simp [hle, hlt]
  | recordNotice text =>
    simp only [RelaySnapshot.completeOutcome, relayLocalOutcome, Desk.finish, Option.some.injEq,
      reduceCtorEq, false_implies, and_true]
    intro d hd
    exact ⟨_, rfl, hd⟩
  | _ => simp [hc, isRelayLocal] at hlocal

theorem Sound.get?_completeCommand_local (hs : s.Sound) (hd : s.dispatches.get? id = some dispatch)
    (hprog : dispatch.state.inProgress) {outcome : RelayCommandOutcome}
    (h : s.completeCommand ordinal id outcome = .ok s') {dispatch' : RelayDispatchRecord}
    (hne : other ≠ id) (hother : s.dispatches.get? other = some dispatch')
    (hlocal' : dispatch'.command.isRelayLocal) : s'.dispatches.get? other = some dispatch' := by
  obtain ⟨ids, hdischarges⟩ := hs.completeCommand hd hprog h
  have hnot : other ∉ ids := by
    intro hmem
    obtain ⟨e, he, hforeign⟩ := hdischarges.spares other hmem hne
    obtain ⟨n, hn⟩ := hs.aligned.entry_of_dispatch hother
    cases hn.symm.trans he
    rw [hlocal'] at hforeign
    cases hforeign
  rw [(hdischarges.kept other hnot).1]
  exact hother

end RelaySnapshot

end Hel
