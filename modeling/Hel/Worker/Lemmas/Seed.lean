import Hel.Worker.Impl.Open
import Hel.Worker.Lemmas.Chronicle

/-!
This module contains the state of a relay that starts in a new directory, with or without the queue of
a restored session.
-/

namespace Hel

open List

variable {queue : List CanonicalQueuedPrompt} {id : String}

structure Seeded (frontier : Nat) (s : RelaySnapshot) : Prop where
  dispatches : ∀ id, s.dispatches.get? id = (s.queuedPrompts.find? (·.commandId = id)).map
    (fun queued => { command := queued.payload.command, state := .queued })
  handled : ∀ id, s.handledCommands.get? id = (s.queuedPrompts.find? (·.commandId = id)).map
    (fun queued =>
      { command := queued.payload.command, acceptedOrdinal := frontier, terminalOrdinal := none })
  nodup : (s.queuedPrompts.map (·.commandId)).Nodup
  identifiers : ∀ queued ∈ s.queuedPrompts, isIdentifier queued.commandId
  latest : s.latestOrdinal = frontier
  execution : s.execution = .idle
  active : s.activePrompt = none
  barrier : s.checkpointBarrier = none

section Seeded

variable {frontier : Nat} {s s' : RelaySnapshot}

theorem isQueueEntry_command (payload : StoredQueuedRelayPayload)
    : payload.command.isQueueEntry := by
  cases payload <;> rfl

theorem not_isClose_of_isQueueEntry {command : RelayCommand} (h : command.isQueueEntry)
    : command.isClose = false := by
  cases command with
  | close => cases h
  | _ => rfl

theorem Seeded.find?_of_dispatch (h : Seeded frontier s) {dispatch : RelayDispatchRecord}
    (hd : s.dispatches.get? id = some dispatch)
    : ∃ queued, s.queuedPrompts.find? (·.commandId = id) = some queued ∧
        queued.commandId = id ∧ queued ∈ s.queuedPrompts ∧
        dispatch = { command := queued.payload.command, state := .queued } := by
  rw [h.dispatches, Option.map_eq_some_iff] at hd
  obtain ⟨queued, hfind, heq⟩ := hd
  have hid := find?_some hfind
  exact ⟨queued, hfind, by simpa using hid, mem_of_find?_eq_some hfind, heq.symm⟩

theorem find?_of_mem_nodup {queue : List StoredQueuedRelayCommand}
    (hnodup : (queue.map (·.commandId)).Nodup) {queued : StoredQueuedRelayCommand}
    (hmem : queued ∈ queue) : queue.find? (·.commandId = queued.commandId) = some queued := by
  induction queue with
  | nil => cases hmem
  | cons head rest ih =>
    rw [map_cons, nodup_cons] at hnodup
    rw [find?_cons]
    cases mem_cons.mp hmem with
    | inl heq => simp [heq]
    | inr hrest =>
    have hne : head.commandId ≠ queued.commandId := by
      intro heq
      apply hnodup.1
      rw [heq]
      exact mem_map_of_mem hrest
    simp only [hne, decide_false]
    exact ih hnodup.2 hrest

theorem Seeded.entry (h : Seeded frontier s) (id : String)
    : s.ledger.entry id = (s.queuedPrompts.find? (·.commandId = id)).map
        (fun queued =>
          { command := queued.payload.command, phase := .queued, accepted := frontier }) := by
  show s.ledgerEntry id = _
  cases hfind : s.queuedPrompts.find? (·.commandId = id) with
  | none =>
    have hd := h.dispatches id
    rw [hfind] at hd
    simp [RelaySnapshot.ledgerEntry, hd]
  | some queued =>
  rw [Option.map_some, RelaySnapshot.ledgerEntry_eq_some]
  refine ⟨{ command := queued.payload.command, state := .queued },
    { command := queued.payload.command, acceptedOrdinal := frontier, terminalOrdinal := none },
    ?_, ?_, rfl⟩
  . rw [h.dispatches, hfind, Option.map_some]
  . rw [h.handled, hfind, Option.map_some]

theorem Seeded.entry_eq_some (h : Seeded frontier s) {e : LedgerEntry}
    (he : s.ledger.entry id = some e)
    : ∃ queued ∈ s.queuedPrompts, queued.commandId = id ∧
        e = { command := queued.payload.command, phase := .queued, accepted := frontier } := by
  rw [h.entry, Option.map_eq_some_iff] at he
  obtain ⟨queued, hfind, heq⟩ := he
  have hid := find?_some hfind
  exact ⟨queued, mem_of_find?_eq_some hfind, by simpa using hid, heq.symm⟩

theorem Seeded.sound (h : Seeded frontier s) : s.Sound := by
  have hphase : ∀ id e, s.ledger.entry id = some e → e.phase = .queued ∧ e.accepted = frontier ∧
      e.command.isQueueEntry := by
    intro id e he
    obtain ⟨queued, _, _, rfl⟩ := h.entry_eq_some he
    exact ⟨rfl, rfl, isQueueEntry_command _⟩
  have hqueue : ∀ q ∈ s.ledger.queue, q.2.isQueueEntry ∧ s.ledger.entry q.1
      = some { command := q.2, phase := .queued, accepted := frontier } := by
    intro q hq
    have hq' : q ∈ s.queuedPrompts.map (fun queued => (queued.commandId, queued.payload.command)) :=
      hq
    obtain ⟨queued, hmem, rfl⟩ := mem_map.mp hq'
    refine ⟨isQueueEntry_command _, ?_⟩
    rw [h.entry, find?_of_mem_nodup h.nodup hmem]
    rfl
  have hactive : s.ledger.active = none := by
    show s.activePromptId = none
    unfold RelaySnapshot.activePromptId
    rw [h.active]
    rfl
  have hbarrier : s.ledger.barrier = none := h.barrier
  constructor
  . constructor
    . intro id
      rw [h.dispatches, h.handled]
      cases s.queuedPrompts.find? (·.commandId = id) <;> rfl
    . intro id dispatch handled hd hh
      obtain ⟨queued, hfind, _, _, rfl⟩ := h.find?_of_dispatch hd
      rw [h.handled, hfind, Option.map_some, Option.some.injEq] at hh
      rw [← hh]
      simp [RelayDispatchState.isTerminal]
    . intro id handled hh
      rw [h.handled, Option.map_eq_some_iff] at hh
      obtain ⟨queued, hfind, _⟩ := hh
      have hid := find?_some hfind
      have := h.identifiers queued (mem_of_find?_eq_some hfind)
      simp only [decide_eq_true_eq] at hid
      rwa [hid] at this
  constructor
  . intro id e he
    rw [(hphase id e he).2.1]
    exact Nat.le_of_eq h.latest.symm
  . show ((s.queuedPrompts.map _).map _).Nodup
    rw [map_map]
    exact h.nodup
  . apply pairwise_of_forall_mem_list
    intro a ha b hb
    unfold Ledger.accepted
    rw [(hqueue a ha).2, (hqueue b hb).2]
    exact Nat.le_refl _
  . intro q hq
    exact ⟨(hqueue q hq).1, frontier, (hqueue q hq).2⟩
  . intro id e he _ _
    obtain ⟨queued, hmem, hid, _⟩ := h.entry_eq_some he
    show id ∈ (s.queuedPrompts.map _).map _
    rw [map_map]
    exact mem_map.mpr ⟨queued, hmem, hid⟩
  . intro id hid
    rw [hactive] at hid
    cases hid
  . intro id e he hstarted
    rw [(hphase id e he).1] at hstarted
    cases hstarted
  . have hexecution : s.ledger.execution = .idle := h.execution
    rw [hactive, hexecution]
    simp
  . intro id e id' e' he _ hstarted
    rw [(hphase id e he).1] at hstarted
    cases hstarted
  . intro id hid
    rw [hbarrier] at hid
    cases hid
  . intro id e he hstarted
    rw [(hphase id e he).1] at hstarted
    cases hstarted
  . intro hsome
    rw [hbarrier] at hsome
    cases hsome
  all_goals
    intro id e he hclose
    rw [not_isClose_of_isQueueEntry (hphase id e he).2.2] at hclose
    cases hclose

structure SameCursors (s s' : RelaySnapshot) : Prop where
  identity : (s'.formatVersion, s'.sessionId) = (s.formatVersion, s.sessionId)
  latest : (s'.latestOrdinal, s'.latestDigest) = (s.latestOrdinal, s.latestDigest)
  acknowledged : (s'.acknowledgedThrough, s'.acknowledgedDigest)
    = (s.acknowledgedThrough, s.acknowledgedDigest)
  floor : (s'.recoveryFloorOrdinal, s'.recoveryFloorDigest)
    = (s.recoveryFloorOrdinal, s.recoveryFloorDigest)
  ready : s'.checkpointReadyThrough = s.checkpointReadyThrough

def restoredCommand (queued : CanonicalQueuedPrompt) : StoredQueuedRelayCommand where
  commandId := queued.commandId
  payload := restoredPayload queued
  createdAtMs := queued.queuedAtMs

theorem Seeded.enqueue (h : Seeded frontier s) {queued : CanonicalQueuedPrompt}
    (hid : isIdentifier queued.commandId) (hnew : s.handledCommands.get? queued.commandId = none)
    : Seeded frontier
        { s with
          handledCommands := s.handledCommands.insert queued.commandId
            { command := (restoredPayload queued).command
              acceptedOrdinal := frontier
              terminalOrdinal := none }
          dispatches := s.dispatches.insert queued.commandId
            { command := (restoredPayload queued).command, state := .queued }
          queuedPrompts := s.queuedPrompts ++ [restoredCommand queued] } := by
  have hnone : s.queuedPrompts.find? (·.commandId = queued.commandId) = none := by
    rw [h.handled, Option.map_eq_none_iff] at hnew
    exact hnew
  have hfind : ∀ id, (s.queuedPrompts ++ [restoredCommand queued]).find? (·.commandId = id)
      = if id = queued.commandId then some (restoredCommand queued)
        else s.queuedPrompts.find? (·.commandId = id) := by
    intro id
    rw [find?_append]
    by_cases heq : id = queued.commandId
    . rw [heq, hnone]
      simp [restoredCommand]
    . have hne : ¬ queued.commandId = id := fun h => heq h.symm
      simp [restoredCommand, heq, hne]
  constructor
  . intro id
    dsimp only
    rw [BTreeMap.get?_insert, hfind]
    split
    . rfl
    . exact h.dispatches id
  . intro id
    dsimp only
    rw [BTreeMap.get?_insert, hfind]
    split
    . rfl
    . exact h.handled id
  . rw [map_append, map_singleton, ← concat_eq_append]
    apply h.nodup.concat
    intro hmem
    obtain ⟨other, hmem, hother⟩ := mem_map.mp hmem
    rw [find?_eq_none] at hnone
    exact hnone other hmem (decide_eq_true hother)
  . rw [forall_mem_append, forall_mem_singleton]
    exact ⟨h.identifiers, hid⟩
  . exact h.latest
  . exact h.execution
  . exact h.active
  . exact h.barrier

theorem Seeded.restoreQueued (h : Seeded frontier s)
    (hrestored : restoreQueued frontier queue s = .ok s')
    : Seeded frontier s' ∧ SameCursors s s' := by
  induction queue generalizing s with
  | nil =>
    simp only [Hel.restoreQueued, Except.ok.injEq] at hrestored
    subst hrestored
    exact ⟨h, ⟨rfl, rfl, rfl, rfl, rfl⟩⟩
  | cons queued rest ih =>
    unfold Hel.restoreQueued at hrestored
    split at hrestored
    . cases hrestored
    rename_i hvalid
    split at hrestored
    . cases hrestored
    split at hrestored
    . cases hrestored
    rename_i hnew
    have hid : isIdentifier queued.commandId := by
      unfold validateIdentifier at hvalid
      split at hvalid
      . assumption
      . cases hvalid
    have hnone : s.handledCommands.get? queued.commandId = none := by
      unfold BTreeMap.contains at hnew
      simpa using hnew
    obtain ⟨hseeded, hsame⟩ := ih (h.enqueue hid hnone) hrestored
    exact ⟨hseeded, { hsame with }⟩

end Seeded

section Initial

variable {codec : RelayCodec} {sessionId : String} {seed : Option RestoredRelaySeed}
  {s : RelaySnapshot}

def genesisOrigin (guarded : Prop) : Origin where
  ordinal := 0
  digest := RELAY_EVENT_GENESIS_DIGEST
  guarded := guarded
  wellFormed := by decide +kernel
  genesis := by simp

theorem seeded_new (frontier : Nat) (digest : String)
    : Seeded frontier
        { RelaySnapshot.new sessionId with
          latestOrdinal := frontier
          latestDigest := digest
          acknowledgedThrough := frontier
          acknowledgedDigest := digest
          recoveryFloorOrdinal := frontier
          recoveryFloorDigest := digest } where
  dispatches := fun _ => rfl
  handled := fun _ => rfl
  nodup := nodup_nil
  identifiers := fun _ hmem => (not_mem_nil hmem).elim
  latest := rfl
  execution := rfl
  active := rfl
  barrier := rfl

structure AtOrigin (sessionId : String) (origin : Origin) (s : RelaySnapshot) : Prop where
  seeded : Seeded origin.ordinal s
  identity : (s.formatVersion, s.sessionId) = (RELAY_STATE_VERSION, sessionId)
  latest : (s.latestOrdinal, s.latestDigest) = (origin.ordinal, origin.digest)
  acknowledged : (s.acknowledgedThrough, s.acknowledgedDigest) = (origin.ordinal, origin.digest)
  floor : (s.recoveryFloorOrdinal, s.recoveryFloorDigest) = (origin.ordinal, origin.digest)
  ready : s.checkpointReadyThrough = none

theorem atOrigin_restoreSeed (guarded : Prop) {restored : RestoredRelaySeed}
    (hvalid : validateRestoredRelaySeed restored = .ok ())
    (h : restoreSeed restored (RelaySnapshot.new sessionId) = .ok s)
    : ∃ origin : Origin, origin.guarded = guarded ∧ AtOrigin sessionId origin s := by
  unfold validateRestoredRelaySeed validateRelayDigest at hvalid
  split at hvalid
  . cases hvalid
  rename_i hdigest
  split at hvalid
  . cases hvalid
  rename_i hgenesis
  split at hdigest
  next hwell =>
    have hgenesis' : restored.eventFrontier = 0
        ↔ restored.eventFrontierDigest = RELAY_EVENT_GENESIS_DIGEST := by
      simp only [ne_eq, Decidable.not_not] at hgenesis
      rw [hgenesis]
    refine ⟨⟨⟨restored.eventFrontier, restored.eventFrontierDigest⟩, hwell, hgenesis', guarded⟩, rfl,
      ?_⟩
    obtain ⟨hseeded, hsame⟩ :=
      (seeded_new restored.eventFrontier restored.eventFrontierDigest).restoreQueued h
    exact { hsame with seeded := hseeded }
  . cases hdigest

theorem atOrigin_initialSnapshot (guarded : Prop) (h : initialSnapshot sessionId seed = .ok s)
    : ∃ origin : Origin, origin.guarded = guarded ∧ AtOrigin sessionId origin s := by
  unfold initialSnapshot at h
  split at h
  . cases h
    exact ⟨genesisOrigin guarded, rfl, seeded_new 0 RELAY_EVENT_GENESIS_DIGEST, rfl, rfl, rfl, rfl, rfl⟩
  rename_i restored
  split at h
  . cases h
  rename_i hvalid
  exact atOrigin_restoreSeed guarded hvalid h

theorem AtOrigin.valid {origin : Origin} (h : AtOrigin sessionId origin s)
    : Chronicle.Valid codec origin
        { history := [], held := s, collected := origin.ordinal } := by
  have hlatest := Prod.mk.inj h.latest
  have hacknowledged := Prod.mk.inj h.acknowledged
  have hfloor := Prod.mk.inj h.floor
  constructor
  . exact ⟨trivial, fun _ hmem => (not_mem_nil hmem).elim,
      fun _ hmem => (not_mem_nil hmem).elim⟩
  . exact hlatest.1
  . constructor
    . exact Or.inl hlatest
    . exact Or.inl hacknowledged
    . dsimp only
      rw [hacknowledged.1, hlatest.1]
    . exact Or.inl hfloor
    . dsimp only
      rw [hfloor.1, hlatest.1]
    . exact Or.inr hlatest.1
    . intro n hn
      rw [h.ready] at hn
      cases hn
    . intro id dispatch through hd hc
      obtain ⟨queued, _, _, _, rfl⟩ := h.seeded.find?_of_dispatch hd
      have := isQueueEntry_command queued.payload
      dsimp only at hc
      rw [hc] at this
      cases this
  . exact h.seeded.sound
  . intro id dispatch hd hkind
    obtain ⟨queued, _, _, _, rfl⟩ := h.seeded.find?_of_dispatch hd
    cases hp : queued.payload <;>
      simp [hp, StoredQueuedRelayPayload.command, RelayCommand.kind] at hkind
  . intro _
    constructor
    all_goals
      intro cut hcut
      rw [h.ready] at hcut
      cases hcut
  . intro _
    dsimp only [RelaySnapshot.retainedThrough]
    rw [hacknowledged.1, hfloor.1, Nat.min_self]

end Initial

end Hel
