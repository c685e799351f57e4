import Hel.Worker.Lemmas.Ledger

/-!
This module contains the effect of every observation on the ledger that the snapshot represents.
-/

namespace Hel

open RelaySnapshot RelayDispatchState RelayCommand List

variable {barrier : String} {outcome : RelayCommandOutcome} {removed : List String}
  {digest : String}

namespace RelaySnapshot

variable {s s' : RelaySnapshot} {id : String} {e : LedgerEntry} {ordinal : Nat}
  {state : RelayDispatchState} {ids : List String}

structure Terminalizes (s s' : RelaySnapshot) (ids : List String) : Prop where
  kept : ∀ id, id ∉ ids → s'.dispatches.get? id = s.dispatches.get? id ∧
    s'.handledCommands.get? id = s.handledCommands.get? id
  settled : ∀ id, id ∈ ids → ∃ state ordinal, state.isTerminal ∧
    s'.dispatches.get? id = (s.dispatches.get? id).map ({ · with state := state }) ∧
    s'.handledCommands.get? id
      = (s.handledCommands.get? id).map ({ · with terminalOrdinal := some ordinal })

theorem terminalize_frame (s : RelaySnapshot) (id : String) (state : RelayDispatchState)
    (ordinal : Nat)
    : (s.terminalize id state ordinal).execution = s.execution ∧
        (s.terminalize id state ordinal).activePrompt = s.activePrompt ∧
        (s.terminalize id state ordinal).queuedPrompts = s.queuedPrompts ∧
        (s.terminalize id state ordinal).checkpointBarrier = s.checkpointBarrier ∧
        (s.terminalize id state ordinal).checkpointReadyThrough = s.checkpointReadyThrough ∧
        (s.terminalize id state ordinal).checkpointReadyDigest = s.checkpointReadyDigest ∧
        (s.terminalize id state ordinal).latestOrdinal = s.latestOrdinal :=
  ⟨rfl, rfl, rfl, rfl, rfl, rfl, rfl⟩

section Terminalizes

variable {s s' s'' : RelaySnapshot} {ids ids' : List String}

theorem terminalizes_refl (s : RelaySnapshot) : s.Terminalizes s [] where
  kept := fun _ _ => ⟨rfl, rfl⟩
  settled := fun _ h => by cases h

theorem terminalizes_terminalize (s : RelaySnapshot) (id : String) (hstate : state.isTerminal)
    (ordinal : Nat) : s.Terminalizes (s.terminalize id state ordinal) [id] where
  kept := by
    intro id' hid
    rw [mem_singleton] at hid
    rw [get?_dispatches_terminalize, get?_handledCommands_terminalize]
    simp [hid]
  settled := by
    intro id' hid
    rw [mem_singleton] at hid
    refine ⟨state, ordinal, hstate, ?_⟩
    rw [get?_dispatches_terminalize, get?_handledCommands_terminalize]
    simp [hid]

theorem Terminalizes.trans (h : s.Terminalizes s' ids) (h' : s'.Terminalizes s'' ids')
    : s.Terminalizes s'' (ids ++ ids') where
  kept := by
    intro id hid
    rw [mem_append, not_or] at hid
    rw [(h'.kept id hid.2).1, (h'.kept id hid.2).2]
    exact h.kept id hid.1
  settled := by
    intro id hid
    by_cases hid' : id ∈ ids'
    . obtain ⟨state, ordinal, hstate, hd', hh'⟩ := h'.settled id hid'
      refine ⟨state, ordinal, hstate, ?_⟩
      rw [hd', hh']
      by_cases hin : id ∈ ids
      . obtain ⟨_, _, _, hd, hh⟩ := h.settled id hin
        rw [hd, hh, Option.map_map, Option.map_map]
        exact ⟨rfl, rfl⟩
      . rw [(h.kept id hin).1, (h.kept id hin).2]
        exact ⟨rfl, rfl⟩
    . have hin : id ∈ ids := by
        rw [mem_append] at hid
        exact hid.resolve_right hid'
      obtain ⟨state, ordinal, hstate, hd, hh⟩ := h.settled id hin
      refine ⟨state, ordinal, hstate, ?_⟩
      rw [(h'.kept id hid').1, (h'.kept id hid').2]
      exact ⟨hd, hh⟩

theorem Terminalizes.congr (h : s.Terminalizes s' ids) (hd : s''.dispatches = s'.dispatches)
    (hh : s''.handledCommands = s'.handledCommands) : s.Terminalizes s'' ids := by
  constructor
  . rw [hd, hh]
    exact h.kept
  . rw [hd, hh]
    exact h.settled

theorem Terminalizes.aligned (h : s.Terminalizes s' ids) (ha : s.Aligned) : s'.Aligned := by
  constructor
  . intro id
    by_cases hid : id ∈ ids
    . obtain ⟨_, _, _, hd, hh⟩ := h.settled id hid
      rw [hd, hh, Option.map_map, Option.map_map]
      exact ha.commands id
    . rw [(h.kept id hid).1, (h.kept id hid).2]
      exact ha.commands id
  . intro id dispatch handled
    by_cases hid : id ∈ ids
    . obtain ⟨state, ordinal, hstate, hd, hh⟩ := h.settled id hid
      rw [hd, hh]
      intro hd' hh'
      obtain ⟨_, _, rfl⟩ := Option.map_eq_some_iff.mp hd'
      obtain ⟨_, _, rfl⟩ := Option.map_eq_some_iff.mp hh'
      simp [hstate]
    . rw [(h.kept id hid).1, (h.kept id hid).2]
      exact ha.terminal id dispatch handled
  . intro id handled
    by_cases hid : id ∈ ids
    . obtain ⟨_, _, _, _, hh⟩ := h.settled id hid
      rw [hh]
      intro hh'
      obtain ⟨handled', hh', _⟩ := Option.map_eq_some_iff.mp hh'
      exact ha.identifiers id handled' hh'
    . rw [(h.kept id hid).2]
      exact ha.identifiers id handled

theorem Terminalizes.entry (h : s.Terminalizes s' ids) (id : String)
    : s'.ledgerEntry id
        = if id ∈ ids then (s.ledgerEntry id).map ({ · with phase := .settled })
          else s.ledgerEntry id := by
  unfold ledgerEntry
  split
  next hid =>
    obtain ⟨state, ordinal, hstate, hd, hh⟩ := h.settled id hid
    have hphase := phase_of_isTerminal hstate
    rw [hd, hh]
    cases s.dispatches.get? id <;> cases s.handledCommands.get? id <;> simp [hphase]
  next hid => rw [(h.kept id hid).1, (h.kept id hid).2]

end Terminalizes

structure Settles (s s' : RelaySnapshot) (ids : List String) : Prop
    extends s.Terminalizes s' ids where
  queue : s'.queuedPrompts = s.queuedPrompts.filter (fun queued => queued.commandId ∉ ids)
  active : s'.activePromptId = s.activePromptId.filter (· ∉ ids)
  barrier : s'.checkpointBarrier = s.checkpointBarrier.filter (· ∉ ids)
  latest : s'.latestOrdinal = s.latestOrdinal

theorem Settles.ledger (h : s.Settles s' ids) : s'.ledger = s.ledger.settle ids s'.execution := by
  ext1
  . funext id
    exact h.entry id
  . show s'.queuedPrompts.map _ = (s.queuedPrompts.map _).filter _
    rw [h.queue, filter_map]
    rfl
  . exact h.active
  . rfl
  . exact h.barrier
  . exact h.latest

theorem Settles.sound (h : s.Settles s' ids) (hs : s.Sound)
    (hrun : s'.execution = .running ↔ s'.activePromptId.isSome) : s'.Sound := by
  refine ⟨h.aligned hs.aligned, ?_⟩
  rw [h.ledger]
  apply hs.invariant.settle
  rw [← h.ledger]
  exact hrun

section Unreferenced

variable {s : RelaySnapshot}

theorem Sound.queue_ne (hs : s.Sound) (he : s.ledger.entry id = some e)
    (h : e.phase ≠ .queued ∨ e.command.isQueueEntry = false)
    : ∀ queued ∈ s.queuedPrompts, queued.commandId ≠ id := by
  intro queued hq
  have hmem : (queued.commandId, queued.payload.command) ∈ s.ledger.queue :=
    mem_map_of_mem hq
  cases h with
  | inl h => exact hs.invariant.queue_ne he h _ hmem
  | inr h => exact hs.invariant.queue_ne_of_not_isQueueEntry he h _ hmem

theorem filter_option {value : Option String} (h : ∀ id ∈ ids, value ≠ some id)
    : value.filter (· ∉ ids) = value := by
  cases value with
  | none => rfl
  | some id =>
    have hid : id ∉ ids := fun hmem => h id hmem rfl
    simp [Option.filter, hid]

def Each (s : RelaySnapshot) (ids : List String) (p : LedgerEntry → Prop) : Prop :=
  ∀ id ∈ ids, ∃ e, s.ledger.entry id = some e ∧ p e

section Each

variable {p : LedgerEntry → Prop}

theorem Each.one (he : s.ledger.entry id = some e) (h : p e) : s.Each [id] p :=
  forall_mem_singleton.mpr ⟨e, he, h⟩

theorem Each.cons (he : s.ledger.entry id = some e) (h : p e) (hrest : s.Each ids p)
    : s.Each (id :: ids) p :=
  forall_mem_cons.mpr ⟨⟨e, he, h⟩, hrest⟩

end Each

theorem Sound.filter_queue (hs : s.Sound) (h : s.Each ids (·.phase ≠ .queued))
    : s.queuedPrompts = s.queuedPrompts.filter (fun queued => queued.commandId ∉ ids) := by
  symm
  apply filter_eq_self.mpr
  intro queued hq
  rw [decide_eq_true_eq]
  intro hmem
  obtain ⟨e, he, hphase⟩ := h _ hmem
  exact hs.queue_ne he (Or.inl hphase) queued hq rfl

theorem Sound.filter_active (hs : s.Sound)
    (h : s.Each ids (fun e => e.command.isPrompt = false ∨ e.phase ≠ .started))
    : s.activePromptId = s.activePromptId.filter (· ∉ ids) := by
  refine (filter_option ?_).symm
  intro id hid
  obtain ⟨e, he, hidle⟩ := h id hid
  exact hs.invariant.active_ne he hidle

theorem Sound.filter_barrier (hs : s.Sound)
    (h : s.Each ids (fun e => e.command.isBeginCheckpoint = false ∨ e.phase ≠ .started))
    : s.checkpointBarrier = s.checkpointBarrier.filter (· ∉ ids) := by
  refine (filter_option ?_).symm
  intro id hid
  obtain ⟨e, he, hidle⟩ := h id hid
  exact hs.invariant.barrier_ne he hidle

theorem Settles.congr {s' s'' : RelaySnapshot} (h : s.Settles s' ids)
    (hd : s''.dispatches = s'.dispatches) (hh : s''.handledCommands = s'.handledCommands)
    (hq : s''.queuedPrompts = s'.queuedPrompts) (ha : s''.activePromptId = s'.activePromptId)
    (hb : s''.checkpointBarrier = s'.checkpointBarrier) (hl : s''.latestOrdinal = s'.latestOrdinal)
    : s.Settles s'' ids where
  toTerminalizes := h.toTerminalizes.congr hd hh
  queue := hq.trans h.queue
  active := ha.trans h.active
  barrier := hb.trans h.barrier
  latest := hl.trans h.latest

end Unreferenced

section Complete

variable {dispatch : RelayDispatchRecord}

theorem Sound.running_iff (hs : s.Sound) : s.execution = .running ↔ s.activePromptId.isSome :=
  hs.invariant.running_iff

section

variable (hs : s.Sound) (hd : s.dispatches.get? id = some dispatch)

include hs hd

theorem Sound.active_none_of_close
    (hopen : dispatch.state.isTerminal = false) (hclose : dispatch.command.isClose)
    : s.activePromptId = none := by
  obtain ⟨n, hn⟩ := hs.aligned.entry_of_dispatch hd
  apply hs.invariant.active_none_of_no_started
  apply hs.invariant.close_idle id _ hn hclose
  show dispatch.state.phase ≠ .settled
  rw [ne_eq, phase_eq_settled, hopen]
  simp

variable (hprog : dispatch.state.inProgress)

include hprog

theorem Sound.active_of_started (hprompt : dispatch.command.isPrompt)
    : s.activePromptId = some id := by
  obtain ⟨n, hn⟩ := hs.aligned.entry_of_dispatch hd
  exact hs.invariant.active_complete id _ hn (phase_eq_started.mpr hprog) hprompt

theorem Sound.settles_simple (hprompt : dispatch.command.isPrompt = false)
    (hbegin : dispatch.command.isBeginCheckpoint = false) (ordinal : Nat)
    : s.Settles (s.terminalize id .completed ordinal) [id] := by
  obtain ⟨n, hn⟩ := hs.aligned.entry_of_dispatch hd
  have hphase := phase_eq_started.mpr hprog
  constructor
  . exact terminalizes_terminalize s id rfl ordinal
  . exact hs.filter_queue (.one hn (by simp [hphase]))
  . exact hs.filter_active (.one hn (Or.inl hprompt))
  . exact hs.filter_barrier (.one hn (Or.inl hbegin))
  . rfl

theorem Sound.completePrompt (hprompt : dispatch.command.isPrompt)
    : s.Settles ((s.terminalize id .completed ordinal).completePrompt id) [id] ∧
        ((s.terminalize id .completed ordinal).completePrompt id).execution ≠ .running ∧
        ((s.terminalize id .completed ordinal).completePrompt id).activePromptId = none := by
  obtain ⟨n, hn⟩ := hs.aligned.entry_of_dispatch hd
  have hphase := phase_eq_started.mpr hprog
  have hactive := hs.active_of_started hd hprog hprompt
  have hrunning := hs.running_iff.mpr (by rw [hactive]; rfl)
  have hnone : ((s.terminalize id .completed ordinal).completePrompt id).activePromptId = none := by
    have hid : (s.terminalize id .completed ordinal).activePromptId = some id := hactive
    simp only [RelaySnapshot.completePrompt, hid, ↓reduceIte]
    rfl
  refine ⟨?_, ?_, hnone⟩
  . constructor
    . exact (terminalizes_terminalize s id rfl ordinal).congr rfl rfl
    . exact hs.filter_queue (.one hn (by simp [hphase]))
    . rw [hnone, hactive]
      simp [Option.filter]
    . refine hs.filter_barrier (.one hn (Or.inl ?_))
      cases hc : dispatch.command <;> simp_all [isPrompt, isBeginCheckpoint]
    . rfl
  . show (if s.execution = .running then RelayExecutionState.idle else s.execution) ≠ .running
    simp [hrunning]

end

theorem terminalizeRemovedPrompts_spec (h : s.terminalizeRemovedPrompts ordinal removed = .ok s')
    : s.Terminalizes s' removed ∧
        (∃ dispatches handled,
          s' = { s with dispatches := dispatches, handledCommands := handled }) ∧
        ∀ id ∈ removed, ∃ dispatch, s.dispatches.get? id = some dispatch ∧
          dispatch.command.isQueueEntry ∧ dispatch.state = .queued := by
  induction removed generalizing s with
  | nil =>
    simp only [terminalizeRemovedPrompts, Except.ok.injEq] at h
    subst h
    exact ⟨terminalizes_refl s, ⟨_, _, rfl⟩, fun _ hid => by cases hid⟩
  | cons commandId rest ih =>
    unfold terminalizeRemovedPrompts at h
    split at h
    . cases h
    rename_i dispatch hd
    split at h
    . cases h
    rename_i hqueued
    split at h
    . cases h
    obtain ⟨hterm, ⟨dispatches, handled, hframe⟩, hrest⟩ := ih h
    simp only [Bool.or_eq_true, Bool.not_eq_true', decide_eq_true_eq, not_or, Bool.not_eq_false,
      ne_eq, Decidable.not_not] at hqueued
    refine ⟨?_, ⟨dispatches, handled, hframe⟩, ?_⟩
    . exact (terminalizes_terminalize s commandId rfl ordinal).trans hterm
    intro id hid
    rw [mem_cons] at hid
    cases hid with
    | inl heq => exact ⟨dispatch, heq ▸ hd, hqueued⟩
    | inr hmem =>
    obtain ⟨dispatch', hd', hentry, hstate⟩ := hrest id hmem
    rw [get?_dispatches_terminalize] at hd'
    split at hd'
    . obtain ⟨_, _, rfl⟩ := Option.map_eq_some_iff.mp hd'
      cases hstate
    . exact ⟨dispatch', hd', hentry, hstate⟩

variable {command : RelayCommand}

theorem not_isRelayLocal_of_isQueueEntry (h : command.isQueueEntry)
    : command.isRelayLocal = false := by
  cases command <;> simp_all [isRelayLocal, isQueueEntry]

/-- The command is settled; what is settled with it is not one that the relay completes itself. -/
structure Discharges (s s' : RelaySnapshot) (id : String) (ids : List String) : Prop
    extends s.Settles s' ids where
  mem : id ∈ ids
  spares : ∀ other ∈ ids, other ≠ id →
    ∃ e, s.ledger.entry other = some e ∧ e.command.isRelayLocal = false
  sound : s'.Sound

theorem Settles.sound_of_frame (h : s.Settles s' ids) (hs : s.Sound)
    (hexecution : s'.execution = s.execution) (hactive : s'.activePromptId = s.activePromptId)
    : s'.Sound := by
  apply h.sound hs
  rw [hexecution, hactive]
  exact hs.running_iff

section

variable (hs : s.Sound)

include hs

theorem Sound.entry_of_queued (hd : s.dispatches.get? id = some dispatch)
    (hstate : dispatch.state = .queued)
    : ∃ e, s.ledger.entry id = some e ∧ e.phase = .queued ∧ e.command = dispatch.command := by
  obtain ⟨n, hn⟩ := hs.aligned.entry_of_dispatch hd
  exact ⟨_, hn, by simp [hstate, phase], rfl⟩

theorem Sound.queued_of_terminalize {id' : String} {dispatch' : RelayDispatchRecord}
    (hd : (s.terminalize id .completed ordinal).dispatches.get? id' = some dispatch')
    (hstate : dispatch'.state = .queued)
    : ∃ e, s.ledger.entry id' = some e ∧ e.phase = .queued ∧ e.command = dispatch'.command := by
  rw [get?_dispatches_terminalize] at hd
  split at hd
  . obtain ⟨_, _, rfl⟩ := Option.map_eq_some_iff.mp hd
    cases hstate
  . exact hs.entry_of_queued hd hstate

theorem Sound.queue_tail {queued : StoredQueuedRelayCommand}
    {rest : List StoredQueuedRelayCommand} (hq : s.queuedPrompts = queued :: rest)
    : ∀ other ∈ rest, other.commandId ≠ queued.commandId := by
  have hnodup : (s.ledger.queue.map (·.1)).Nodup := hs.invariant.queue_nodup
  simp only [ledger, hq, map_cons, map_map, nodup_cons, mem_map,
    Function.comp_apply, not_exists, not_and] at hnodup
  exact hnodup.1

theorem Sound.discharge (ids : List String) (h : s.Settles s' ids) (hmem : id ∈ ids)
    (hspares : ∀ other ∈ ids, other ≠ id →
      ∃ e, s.ledger.entry other = some e ∧ e.command.isRelayLocal = false)
    (hexecution : s'.execution = s.execution) (hactive : s'.activePromptId = s.activePromptId)
    : ∃ ids, s.Discharges s' id ids :=
  ⟨ids, h, hmem, hspares, h.sound_of_frame hs hexecution hactive⟩

theorem Sound.settled_frame (h : s.Settles (s.terminalize id .completed ordinal) [id])
    (hd : s'.dispatches = (s.terminalize id .completed ordinal).dispatches)
    (hh : s'.handledCommands = (s.terminalize id .completed ordinal).handledCommands)
    (hq : s'.queuedPrompts = s.queuedPrompts) (ha : s'.activePromptId = s.activePromptId)
    (hb : s'.checkpointBarrier = s.checkpointBarrier) (hl : s'.latestOrdinal = s.latestOrdinal)
    (hexecution : s'.execution = s.execution) : ∃ ids, s.Discharges s' id ids :=
  hs.discharge [id] (h.congr hd hh hq ha hb hl) (by simp) (by simp) hexecution ha

theorem Sound.spares_barrier (hb : s.checkpointBarrier = some barrier)
    : ∀ other ∈ [id, barrier], other ≠ id →
      ∃ e, s.ledger.entry other = some e ∧ e.command.isRelayLocal = false := by
  intro other hmem hne
  have heq : other = barrier := by simpa [hne] using hmem
  obtain ⟨e, he, _, hbegin⟩ := hs.invariant.barrier_sound barrier hb
  refine ⟨e, heq ▸ he, ?_⟩
  cases hc : e.command <;> simp_all [isRelayLocal, isBeginCheckpoint]

variable (hd : s.dispatches.get? id = some dispatch) (hprog : dispatch.state.inProgress)

include hd hprog

theorem Sound.removePrompts (hqueue : dispatch.command.isQueueEntry = false)
    (hbegin : dispatch.command.isBeginCheckpoint = false)
    (h : (s.terminalize id .completed ordinal).removePrompts ordinal removed = .ok s')
    : ∃ ids, s.Discharges s' id ids := by
  unfold RelaySnapshot.removePrompts at h
  split at h
  . cases h
  rename_i s'' hterm
  obtain ⟨hterminalizes, ⟨dispatches, handled, rfl⟩, hqueued⟩ :=
    terminalizeRemovedPrompts_spec hterm
  obtain ⟨n, hn⟩ := hs.aligned.entry_of_dispatch hd
  have hphase := phase_eq_started.mpr hprog
  have hprompt := Ledger.not_isPrompt_of_not_isQueueEntry hqueue
  have hremoved : s.Each removed (fun e => e.phase = .queued ∧ e.command.isQueueEntry) := by
    intro id' hid
    obtain ⟨dispatch', hd', hentry, hstate'⟩ := hqueued id' hid
    obtain ⟨e, he, hq, hcommand⟩ := hs.queued_of_terminalize hd' hstate'
    exact ⟨e, he, hq, hcommand ▸ hentry⟩
  have hidle {p : LedgerEntry → Prop} : s.Each removed (fun e => p e ∨ e.phase ≠ .started) := by
    intro id' hid
    obtain ⟨e, he, hq, _⟩ := hremoved id' hid
    exact ⟨e, he, Or.inr (by simp [hq])⟩
  cases h
  refine hs.discharge (id :: removed) ?_ (by simp) ?_ rfl rfl
  . constructor
    . have := (terminalizes_terminalize s id rfl ordinal).trans hterminalizes
      exact this.congr rfl rfl
    . show s.queuedPrompts.filter _ = _
      apply filter_congr
      intro queued hq
      have hne := hs.queue_ne hn (Or.inl (by simp [hphase])) queued hq
      simp [hne]
    . exact hs.filter_active (.cons hn (Or.inl hprompt) hidle)
    . exact hs.filter_barrier (.cons hn (Or.inl hbegin) hidle)
    . rfl
  . intro other hmem hne
    obtain ⟨e, he, _, hentry⟩ := hremoved other (by simpa [hne] using hmem)
    exact ⟨e, he, not_isRelayLocal_of_isQueueEntry hentry⟩

theorem Sound.completeSteering (hqueue : dispatch.command.isQueueEntry = false)
    (hbegin : dispatch.command.isBeginCheckpoint = false) {target : String}
    (h : (s.terminalize id .completed ordinal).completeSteering ordinal target = .ok s')
    : ∃ ids, s.Discharges s' id ids := by
  obtain ⟨n, hn⟩ := hs.aligned.entry_of_dispatch hd
  have hphase := phase_eq_started.mpr hprog
  have hprompt := Ledger.not_isPrompt_of_not_isQueueEntry hqueue
  unfold RelaySnapshot.completeSteering at h
  split at h
  . cases h
  rename_i queued rest hq
  split at h
  . cases h
  rename_i hhead
  simp only [Bool.or_eq_true, decide_eq_true_eq, ne_eq, not_or, Decidable.not_not] at hhead
  split at h
  . cases h
  rename_i dispatch' hd'
  split at h
  . cases h
  rename_i hstate
  simp only [Bool.or_eq_true, decide_eq_true_eq, ne_eq, not_or, Decidable.not_not,
    Bool.not_eq_true', Bool.not_eq_false] at hstate
  split at h <;> cases h
  obtain ⟨e, he, hequeued, hcommand⟩ := hs.queued_of_terminalize hd' hstate.1
  have hidle : e.phase ≠ .started := by simp [hequeued]
  change s.queuedPrompts = _ at hq
  refine hs.discharge [id, target] ?_ (by simp) ?_ ?_ ?_
  rotate_left
  . intro other hmem hne
    have heq : other = target := by simpa [hne] using hmem
    refine ⟨e, heq ▸ he, not_isRelayLocal_of_isQueueEntry ?_⟩
    rw [hcommand]
    exact Ledger.isQueueEntry_of_isPrompt hstate.2
  . simp only [dropContexts, terminalize_frame]
  . simp only [dropContexts, activePromptId, terminalize_frame]
  constructor
  . have hboth : s.Terminalizes
        ((s.terminalize id .completed ordinal).terminalize target .completed ordinal)
        [id, target] :=
      (terminalizes_terminalize s id rfl ordinal).trans
        (terminalizes_terminalize _ target rfl ordinal)
    exact hboth.congr rfl rfl
  . show rest = _
    have hne := hs.queue_ne hn (Or.inl (by simp [hphase]))
    have htail := hs.queue_tail hq
    rw [hq] at hne ⊢
    rw [filter_cons_of_neg (by simp [hhead.1])]
    symm
    apply filter_eq_self.mpr
    intro other hother
    have h1 := hne other (mem_cons_of_mem _ hother)
    have h2 := htail other hother
    simp [h1, hhead.1 ▸ h2]
  . simp only [dropContexts, activePromptId, terminalize_frame]
    exact hs.filter_active (.cons hn (Or.inl hprompt) (.one he (Or.inr hidle)))
  . simp only [dropContexts, terminalize_frame]
    exact hs.filter_barrier (.cons hn (Or.inl hbegin) (.one he (Or.inr hidle)))
  . simp only [dropContexts, terminalize_frame]

theorem Sound.discharge_barrier (hprompt : dispatch.command.isPrompt = false)
    (hb : s.checkpointBarrier = some barrier) (floor : Nat) (floorDigest : String)
    : ∃ ids, s.Discharges
        ({ (s.terminalize id .completed ordinal).clearBarrier with
            recoveryFloorOrdinal := floor
            recoveryFloorDigest := floorDigest }.terminalize barrier .completed ordinal) id ids := by
  obtain ⟨n, hn⟩ := hs.aligned.entry_of_dispatch hd
  have hphase := phase_eq_started.mpr hprog
  obtain ⟨e, he, hstarted, hbarrier⟩ := hs.invariant.barrier_sound barrier hb
  have hbprompt : e.command.isPrompt = false := by
    cases hc : e.command <;> simp_all [isPrompt, isBeginCheckpoint]
  refine hs.discharge [id, barrier] ?_ (by simp) (hs.spares_barrier hb) ?_ ?_
  rotate_left
  . simp only [clearBarrier, terminalize_frame]
  . simp only [clearBarrier, activePromptId, terminalize_frame]
  constructor
  . have hfirst : s.Terminalizes { (s.terminalize id .completed ordinal).clearBarrier with
        recoveryFloorOrdinal := floor, recoveryFloorDigest := floorDigest } [id] :=
      Terminalizes.congr (terminalizes_terminalize s id rfl ordinal) rfl rfl
    exact hfirst.trans (terminalizes_terminalize _ barrier rfl ordinal)
  . simp only [clearBarrier, terminalize_frame]
    exact hs.filter_queue (.cons hn (by simp [hphase]) (.one he (by simp [hstarted])))
  . simp only [clearBarrier, activePromptId, terminalize_frame]
    exact hs.filter_active (.cons hn (Or.inl hprompt) (.one he (Or.inl hbprompt)))
  . simp only [clearBarrier, terminalize_frame, hb]
    simp [Option.filter]
  . simp only [clearBarrier, terminalize_frame]

theorem Sound.completeBarrier (hprompt : dispatch.command.isPrompt = false)
    (h : (s.terminalize id .completed ordinal).completeBarrier ordinal barrier = .ok s')
    : ∃ ids, s.Discharges s' id ids := by
  unfold RelaySnapshot.completeBarrier at h
  split at h
  . cases h
  rename_i hb
  rw [ne_eq, Decidable.not_not] at hb
  split at h
  . cases h
  split at h <;> cases h
  exact hs.discharge_barrier hd hprog hprompt hb _ _

theorem Sound.releaseBarrier (hprompt : dispatch.command.isPrompt = false)
    (h : (s.terminalize id .completed ordinal).releaseBarrier ordinal barrier = .ok s')
    : ∃ ids, s.Discharges s' id ids := by
  unfold RelaySnapshot.releaseBarrier at h
  split at h
  . cases h
  rename_i hb
  rw [ne_eq, Decidable.not_not] at hb
  split at h <;> cases h
  exact hs.discharge_barrier hd hprog hprompt hb s.recoveryFloorOrdinal s.recoveryFloorDigest

theorem Sound.completeOutcome
    (h : (s.terminalize id .completed ordinal).completeOutcome ordinal id dispatch.command outcome
      = .ok s') : ∃ ids, s.Discharges s' id ids := by
  have hsimple := fun hprompt hbegin => hs.settles_simple hd hprog hprompt hbegin ordinal
  obtain ⟨command, state⟩ := dispatch
  dsimp only at h
  unfold completeOutcome at h
  split at h
  . cases h
    obtain ⟨hsettles, hidle, hnone⟩ := hs.completePrompt hd hprog rfl
    refine ⟨[id], hsettles, by simp, by simp, hsettles.sound hs ?_⟩
    rw [hnone]
    simp [hidle]
  . unfold completeUserShell at h
    split at h <;> cases h
    exact hs.settled_frame (hsimple rfl rfl) rfl rfl rfl rfl rfl rfl rfl
  . cases h
    exact hs.settled_frame (hsimple rfl rfl) rfl rfl rfl rfl rfl rfl rfl
  next queuedCommandId removed =>
    unfold completeRemoval at h
    generalize (if (s.terminalize id .completed ordinal).queuedPrompts.any
        (·.commandId = queuedCommandId) then some [queuedCommandId] else none) = expected at h
    dsimp only at h
    split at h
    . cases h
    exact hs.removePrompts hd hprog rfl rfl h
  . unfold completeClear at h
    split at h
    . cases h
    exact hs.removePrompts hd hprog rfl rfl h
  iterate 3
    cases h
    exact hs.settled_frame (hsimple rfl rfl) rfl rfl rfl rfl rfl rfl rfl
  . exact hs.completeSteering hd hprog rfl rfl h
  . cases h
    have hopen := not_isTerminal_of_inProgress hprog
    have hnone := hs.active_none_of_close hd hopen rfl
    have hsettles : s.Settles
        { s.terminalize id .completed ordinal with execution := .closed, activePrompt := none }
        [id] :=
      Settles.congr (hsimple rfl rfl) rfl rfl rfl hnone.symm rfl rfl
    refine ⟨[id], hsettles, by simp, by simp, hsettles.sound hs ?_⟩
    simp [activePromptId]
  . exact hs.completeBarrier hd hprog rfl h
  . exact hs.releaseBarrier hd hprog rfl h
  . unfold advanceFloor at h
    split at h <;> cases h
    exact hs.settled_frame (hsimple rfl rfl) rfl rfl rfl rfl rfl rfl rfl
  . cases h
    exact hs.settled_frame (hsimple rfl rfl) rfl rfl rfl rfl rfl rfl rfl
  . cases h
  . cases h

theorem Sound.completeCommand (h : s.completeCommand ordinal id outcome = .ok s')
    : ∃ ids, s.Discharges s' id ids := by
  unfold RelaySnapshot.completeCommand at h
  rw [hd] at h
  dsimp only at h
  split at h
  . cases h
  exact hs.completeOutcome hd hprog h

end

end Complete

section Terminate

theorem releaseTerminated_spec {t : RelaySnapshot} {command : RelayCommand}
    (h : s.releaseTerminated id command = t)
    : t.dispatches = s.dispatches ∧ t.handledCommands = s.handledCommands ∧
        t.queuedPrompts = s.queuedPrompts ∧ t.latestOrdinal = s.latestOrdinal ∧
        t.activePromptId = (if s.activePromptId = some id then none else s.activePromptId) ∧
        t.checkpointBarrier = (if command.isBeginCheckpoint ∧ s.checkpointBarrier = some id then none
          else s.checkpointBarrier) ∧
        (t.execution = .running ↔ s.activePromptId ≠ some id ∧ s.execution = .running) := by
  subst h
  unfold releaseTerminated
  dsimp only
  split <;> split <;> split <;> simp_all [activePromptId, detachContexts, clearBarrier]

theorem option_filter_singleton (value : Option String) (id : String)
    : value.filter (· ∉ [id]) = if value = some id then none else value := by
  cases value with
  | none => simp
  | some id' =>
    by_cases heq : id' = id <;> simp [Option.filter, heq]

theorem Sound.releaseTerminated {t : RelaySnapshot} (hs : s.Sound) {dispatch : RelayDispatchRecord}
    (hd : s.dispatches.get? id = some dispatch) (hterm : s.Terminalizes t [id])
    (hqueue : t.queuedPrompts = s.queuedPrompts.filter (fun queued => queued.commandId ∉ [id]))
    (hactive : t.activePromptId = s.activePromptId)
    (hbarrier : t.checkpointBarrier = s.checkpointBarrier) (hexecution : t.execution = s.execution)
    (hlatest : t.latestOrdinal = s.latestOrdinal)
    : s.Settles (t.releaseTerminated id dispatch.command) [id] ∧
        (t.releaseTerminated id dispatch.command).Sound := by
  obtain ⟨n, hn⟩ := hs.aligned.entry_of_dispatch hd
  obtain ⟨hfd, hfh, hfq, hfl, hfa, hfb, hfe⟩ :=
    releaseTerminated_spec (rfl : t.releaseTerminated id dispatch.command = _)
  have hsettles : s.Settles (t.releaseTerminated id dispatch.command) [id] := by
    constructor
    . exact hterm.congr hfd hfh
    . exact hfq.trans hqueue
    . rw [hfa, option_filter_singleton, hactive]
    . rw [hfb, option_filter_singleton, hbarrier]
      by_cases hb : s.checkpointBarrier = some id
      . obtain ⟨e, he, _, hbegin⟩ := hs.invariant.barrier_sound id hb
        cases hn.symm.trans he
        simp [hbegin]
      . simp [hb]
    . exact hfl.trans hlatest
  refine ⟨hsettles, hsettles.sound hs ?_⟩
  rw [hfe, hfa, hactive, hexecution, hs.running_iff]
  by_cases ha : s.activePromptId = some id <;> simp [ha]

theorem Sound.terminateCommand (hs : s.Sound) (hstate : state.isTerminal) {kind : RelayCommandKind}
    {message : String} (h : s.terminateCommand ordinal state id kind message = .ok s')
    : s.Settles s' [id] ∧ s'.Sound := by
  have hterm := terminalizes_terminalize s id hstate ordinal
  unfold RelaySnapshot.terminateCommand at h
  split at h
  . cases h
  rename_i dispatch hd
  split at h
  . cases h
  split at h
  . cases h
  dsimp only at h
  cases h
  split
  all_goals
    apply hs.releaseTerminated hd
    . exact hterm.congr rfl rfl
    . simp only [pushUserShellContext, removeQueued, terminalize_frame]
    . simp only [pushUserShellContext, removeQueued, activePromptId, terminalize_frame]
    . simp only [pushUserShellContext, removeQueued, terminalize_frame]
    . simp only [pushUserShellContext, removeQueued, terminalize_frame]
    . simp only [pushUserShellContext, removeQueued, terminalize_frame]

end Terminate

section Start

variable {startedAtMs : Int}

theorem eraseP_eq_filter_of_nodup {queue : List StoredQueuedRelayCommand}
    (h : (queue.map (·.commandId)).Nodup) (id : String)
    : queue.eraseP (·.commandId = id) = queue.filter (·.commandId ≠ id) := by
  induction queue with
  | nil => rfl
  | cons queued rest ih =>
    simp only [map_cons, nodup_cons, mem_map, not_exists, not_and] at h
    by_cases heq : queued.commandId = id
    . rw [eraseP_cons_of_pos (by simp [heq]), filter_cons_of_neg (by simp [heq])]
      symm
      apply filter_eq_self.mpr
      intro other hother
      simpa using heq ▸ h.1 other hother
    . rw [eraseP_cons_of_neg (by simp [heq]), filter_cons_of_pos (by simp [heq])]
      rw [ih h.2]

theorem Sound.queue_nodup (hs : s.Sound) : (s.queuedPrompts.map (·.commandId)).Nodup := by
  have := hs.invariant.queue_nodup
  simpa [ledger, map_map, Function.comp_def] using this

structure Starts (s s' : RelaySnapshot) (id : String) (command : RelayCommand) : Prop where
  dispatches : s'.dispatches = (s.setDispatchState id .pending).dispatches
  handled : s'.handledCommands = s.handledCommands
  queue : s'.queuedPrompts = s.queuedPrompts.filter (·.commandId ≠ id)
  active : s'.activePromptId = if command.isPrompt then some id else s.activePromptId
  execution : s'.execution
    = if command.isPrompt then .running else if command.isClose then .closing else s.execution
  barrier : s'.checkpointBarrier = if command.isBeginCheckpoint then some id else s.checkpointBarrier
  latest : s'.latestOrdinal = s.latestOrdinal

theorem Starts.sound (h : s.Starts s' id command) (hs : s.Sound)
    (hstart : s.ledger.Startable id e) (hcommand : e.command = command) : s'.Sound := by
  obtain ⟨dispatch, hd, hdc, hdp⟩ := dispatch_of_entry hstart.entry
  rw [hstart.queued, phase_eq_queued] at hdp
  have haligned : (s.setDispatchState id .pending).Aligned :=
    hs.aligned.setDispatchState hd (by rw [hdp]; rfl)
  refine ⟨haligned.congr h.dispatches h.handled, ?_⟩
  have hledger : s'.ledger = s.ledger.start id e := by
    ext1
    . funext id'
      rw [Ledger.entry_start]
      show s'.ledgerEntry id' = _
      rw [ledgerEntry_congr h.dispatches (h.handled.trans rfl), ledgerEntry_setDispatchState]
      split
      next heq =>
        have hentry : s.ledgerEntry id' = some e := heq ▸ hstart.entry
        rw [hentry]
        rfl
      next => rfl
    . show s'.queuedPrompts.map _ = (s.queuedPrompts.map _).filter _
      rw [h.queue, filter_map]
      rfl
    . simp only [Ledger.start, hcommand]
      exact h.active
    . simp only [Ledger.start, hcommand]
      exact h.execution
    . simp only [Ledger.start, hcommand]
      exact h.barrier
    . exact h.latest
  rw [hledger]
  exact hs.invariant.start hstart

theorem Sound.filter_queue_ne (hs : s.Sound) (he : s.ledger.entry id = some e)
    (h : e.command.isQueueEntry = false)
    : s.queuedPrompts.filter (·.commandId ≠ id) = s.queuedPrompts := by
  apply filter_eq_self.mpr
  intro queued hq
  simpa using hs.queue_ne he (Or.inr h) queued hq

theorem Sound.starts (hs : s.Sound) (hstart : s.ledger.Startable id e)
    (h : s.startCommand id startedAtMs = .ok s') : s.Starts s' id e.command := by
  obtain ⟨⟨command, state⟩, hd, hdc, _⟩ := dispatch_of_entry hstart.entry
  have hqueue := hs.filter_queue_ne hstart.entry
  have herase := eraseP_eq_filter_of_nodup hs.queue_nodup id
  rw [← hdc] at hqueue ⊢
  unfold startCommand at h
  rw [hd] at h
  dsimp only at h hqueue ⊢
  split at h
  . unfold startPrompt at h
    split at h
    . cases h
    rename_i queued hfind
    split at h <;> cases h
    have hid : queued.commandId = id := by simpa using find?_some hfind
    exact ⟨rfl, rfl, herase, congrArg some hid, rfl, rfl, rfl⟩
  . unfold startSetConfig at h
    split at h <;> cases h
    exact ⟨rfl, rfl, herase, rfl, rfl, rfl, rfl⟩
  . cases h
    exact ⟨rfl, rfl, (hqueue rfl).symm, rfl, rfl, rfl, rfl⟩
  . unfold startUserShell at h
    split at h <;> cases h
    exact ⟨rfl, rfl, (hqueue rfl).symm, rfl, rfl, rfl, rfl⟩
  . unfold startBarrier at h
    split at h <;> cases h
    exact ⟨rfl, rfl, (hqueue rfl).symm, rfl, rfl, rfl, rfl⟩
  next hprompt hconfig hclose hshell hbegin =>
    have hflags : command.isQueueEntry = false ∧ command.isPrompt = false ∧
        command.isClose = false ∧ command.isBeginCheckpoint = false := by
      clear h hqueue hdc hd
      revert hprompt hconfig hclose hshell hbegin
      cases command <;> simp [isQueueEntry, isPrompt, isClose, isBeginCheckpoint]
    obtain ⟨hentry, hprompt, hclose, hbegin⟩ := hflags
    cases h
    refine ⟨rfl, rfl, (hqueue hentry).symm, ?_, ?_, ?_, rfl⟩
    . simp [hprompt, activePromptId, setDispatchState]
    . simp [hprompt, hclose, setDispatchState]
    . simp [hbegin, setDispatchState]

end Start

theorem Sound.queueCommand {s : RelaySnapshot} (hs : s.Sound) {id : String}
    {createdAtMs : Int} (hid : s.handledCommands.get? id = none) (hident : isIdentifier id)
    (hclosing : s.ledger.closing → command.isCompleteCheckpoint)
    (hclose : command.isClose → s.checkpointBarrier.isSome)
    : Sound
        { s.queueCommand (s.latestOrdinal + 1) id command createdAtMs with
          latestOrdinal := s.latestOrdinal + 1
          latestDigest := digest } := by
  have hentry : s.ledger.entry id = none := by
    show s.ledgerEntry id = none
    simp [ledgerEntry, hid]
  constructor
  . constructor
    . intro id'
      simp only [RelaySnapshot.queueCommand, BTreeMap.get?_insert]
      split
      . rfl
      . exact hs.aligned.commands id'
    . intro id' dispatch handled hd hh
      simp only [RelaySnapshot.queueCommand, BTreeMap.get?_insert] at hd hh
      split at hd
      next heq =>
        simp only [heq, ↓reduceIte, Option.some.injEq] at hd hh
        rw [← hd, ← hh]
        simp [isTerminal]
      next hne =>
        simp only [hne, ↓reduceIte] at hh
        exact hs.aligned.terminal id' dispatch handled hd hh
    . intro id' handled hh
      simp only [RelaySnapshot.queueCommand, BTreeMap.get?_insert] at hh
      split at hh
      next heq => exact heq ▸ hident
      next => exact hs.aligned.identifiers id' handled hh
  have hledger : RelaySnapshot.ledger
      { s.queueCommand (s.latestOrdinal + 1) id command createdAtMs with
        latestOrdinal := s.latestOrdinal + 1
        latestDigest := digest } = s.ledger.enroll id command := by
    ext1
    . funext id'
      rw [Ledger.entry_enroll]
      simp only [RelaySnapshot.ledger, ledgerEntry, RelaySnapshot.queueCommand,
        BTreeMap.get?_insert]
      split
      . rfl
      . rfl
    . simp only [RelaySnapshot.ledger, RelaySnapshot.queueCommand, Ledger.enroll]
      cases command <;>
        simp [StoredQueuedRelayPayload.ofCommand, isQueueEntry, StoredQueuedRelayPayload.command]
    . rfl
    . rfl
    . rfl
    . rfl
  rw [hledger]
  exact hs.invariant.enroll hentry hclosing hclose

theorem Sound.congr (hs : s.Sound) (hd : s'.dispatches = s.dispatches)
    (hh : s'.handledCommands = s.handledCommands) (hq : s'.queuedPrompts = s.queuedPrompts)
    (ha : s'.activePromptId = s.activePromptId) (he : s'.execution = s.execution)
    (hb : s'.checkpointBarrier = s.checkpointBarrier) (hl : s.latestOrdinal ≤ s'.latestOrdinal)
    : s'.Sound := by
  refine ⟨hs.aligned.congr hd hh, ?_⟩
  have hledger : s'.ledger = { s.ledger with latest := s'.latestOrdinal } := by
    ext1
    . exact ledgerEntry_congr hd hh
    . simp only [ledger, hq]
    . exact ha
    . exact he
    . exact hb
    . rfl
  rw [hledger]
  exact hs.invariant.advance hl

def Admissible (s : RelaySnapshot) : RelayObservation → Prop
  | .commandQueued id command _ =>
    s.handledCommands.get? id = none ∧ isIdentifier id ∧
      (s.ledger.closing → command.isCompleteCheckpoint) ∧
      (command.isClose → s.checkpointBarrier.isSome)
  | .commandStarted id _ => ∃ e, s.ledger.Startable id e
  | .commandCompleted id _ =>
    ∃ dispatch, s.dispatches.get? id = some dispatch ∧ dispatch.state.inProgress
  | .closing => False
  | .closed => s.execution = .closed
  | _ => True

theorem sound_applySessionUpdate {s : RelaySnapshot} (hs : s.Sound) (update : SessionUpdate)
    : (s.applySessionUpdate update).Sound ∧
        (s.applySessionUpdate update).latestOrdinal = s.latestOrdinal := by
  unfold applySessionUpdate
  split
  iterate 3 exact ⟨hs.congr rfl rfl rfl rfl rfl rfl (Nat.le_refl _), rfl⟩
  exact ⟨hs, rfl⟩

end RelaySnapshot

section Event

variable {codec : RelayCodec} {event : RelayEvent}

theorem validateRelayEvent_eq_ok {ordinal : Nat}
    (h : validateRelayEvent codec ordinal digest event = .ok ())
    : ordinal < U64_MAX ∧ event.ordinal = ordinal + 1 ∧
        validateRelayEventSelf codec event = .ok () := by
  unfold validateRelayEvent at h
  split at h
  . cases h
  split at h
  . cases h
  rename_i hmax
  split at h
  . cases h
  rename_i hordinal
  split at h
  . cases h
  exact ⟨by omega, by omega, h⟩

theorem applyRelayEvent_eq_ok (h : applyRelayEvent codec s event = .ok s')
    : validateRelayEvent codec s.latestOrdinal s.latestDigest event = .ok () ∧
        ∃ next, s.applyObservation event.ordinal event.digest event.observation = .ok next ∧
          s' = { next with latestOrdinal := event.ordinal, latestDigest := event.digest } := by
  unfold applyRelayEvent at h
  split at h
  . cases h
  rename_i hvalid
  split at h
  . cases h
  rename_i next hnext
  rw [Except.ok.injEq] at h
  exact ⟨hvalid, next, hnext, h.symm⟩

theorem ordinal_of_applyRelayEvent (h : applyRelayEvent codec s event = .ok s')
    : event.ordinal = s.latestOrdinal + 1 ∧ s'.latestOrdinal = s.latestOrdinal + 1 ∧
        s'.latestDigest = event.digest := by
  obtain ⟨hvalid, next, _, rfl⟩ := applyRelayEvent_eq_ok h
  have hordinal := (validateRelayEvent_eq_ok hvalid).2.1
  exact ⟨hordinal, hordinal, rfl⟩

theorem ordinal_le_of_applyRelayEvent (h : applyRelayEvent codec s event = .ok s')
    : event.ordinal ≤ U64_MAX := by
  obtain ⟨hvalid, _⟩ := applyRelayEvent_eq_ok h
  have := validateRelayEvent_eq_ok hvalid
  omega

theorem RelaySnapshot.Sound.applyRelayEvent (hs : s.Sound) (hadm : s.Admissible event.observation)
    (h : applyRelayEvent codec s event = .ok s') : s'.Sound := by
  obtain ⟨hordinal, _, _⟩ := ordinal_of_applyRelayEvent h
  obtain ⟨_, next, hnext, rfl⟩ := applyRelayEvent_eq_ok h
  suffices hsound : (∃ id command createdAtMs,
      event.observation = .commandQueued id command createdAtMs) ∨
      next.Sound ∧ next.latestOrdinal = s.latestOrdinal by
    cases hsound with
    | inl hqueued =>
      obtain ⟨id, command, createdAtMs, hqueued⟩ := hqueued
      rw [hqueued] at hnext hadm
      simp only [applyObservation, Except.ok.injEq] at hnext
      subst hnext
      rw [hordinal]
      exact hs.queueCommand hadm.1 hadm.2.1 hadm.2.2.1 hadm.2.2.2
    | inr hnext =>
      have hle : next.latestOrdinal ≤ event.ordinal := by omega
      exact hnext.1.congr rfl rfl rfl rfl rfl rfl hle
  unfold applyObservation at hnext
  split at hnext
  iterate 4
    cases hnext
    exact Or.inr ⟨hs.congr rfl rfl rfl rfl rfl rfl (Nat.le_refl _), rfl⟩
  next hobs => exact Or.inl ⟨_, _, _, hobs⟩
  next id startedAtMs hobs =>
    rw [hobs] at hadm
    obtain ⟨e, hstart⟩ := hadm
    have hstarts := hs.starts hstart hnext
    exact Or.inr ⟨hstarts.sound hs hstart rfl, hstarts.latest⟩
  next id outcome hobs =>
    rw [hobs] at hadm
    obtain ⟨dispatch, hd, hprog⟩ := hadm
    obtain ⟨ids, hdischarges⟩ := hs.completeCommand hd hprog hnext
    exact Or.inr ⟨hdischarges.sound, hdischarges.latest⟩
  iterate 2
    obtain ⟨hsettles, hsound⟩ := hs.terminateCommand rfl hnext
    exact Or.inr ⟨hsound, hsettles.latest⟩
  next hobs =>
    cases hnext
    exact Or.inr ⟨hs.congr rfl rfl rfl rfl rfl rfl (Nat.le_refl _), rfl⟩
  next hobs =>
    unfold readyBarrier at hnext
    repeat' split at hnext
    all_goals try cases hnext
    exact Or.inr ⟨hs.congr rfl rfl rfl rfl rfl rfl (Nat.le_refl _), rfl⟩
  next hobs =>
    rw [hobs] at hadm
    exact absurd hadm id
  next hobs =>
    rw [hobs] at hadm
    change s.execution = .closed at hadm
    have hnone : s.activePromptId = none := by
      have hrun := hs.running_iff
      rw [hadm] at hrun
      cases hactive : s.activePromptId with
      | none => rfl
      | some id => simp [hactive] at hrun
    cases hnext
    exact Or.inr ⟨hs.congr rfl rfl rfl hnone.symm hadm.symm rfl (Nat.le_refl _), rfl⟩
  next update hobs =>
    cases hnext
    exact Or.inr (sound_applySessionUpdate hs update)
  all_goals
    cases hnext
    exact Or.inr ⟨hs, rfl⟩

end Event

end Hel
