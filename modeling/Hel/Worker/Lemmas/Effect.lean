import Hel.Worker.Lemmas.Apply

/-!
This module contains what an observation can do to the frontiers of the relay and to the state of
its dispatches.
-/

namespace Hel

namespace RelaySnapshot

structure Frontier where
  acknowledgedThrough : Nat
  acknowledgedDigest : String
  recoveryFloor : RelayCursor
  readyThrough : Option Nat
  readyDigest : Option String
  identity : Nat × String

def frontier (s : RelaySnapshot) : Frontier where
  acknowledgedThrough := s.acknowledgedThrough
  acknowledgedDigest := s.acknowledgedDigest
  recoveryFloor := { ordinal := s.recoveryFloorOrdinal, digest := s.recoveryFloorDigest }
  readyThrough := s.checkpointReadyThrough
  readyDigest := s.checkpointReadyDigest
  identity := (s.formatVersion, s.sessionId)

theorem frontier_fields {s : RelaySnapshot} {f : Frontier} (h : s.frontier = f)
    : s.acknowledgedThrough = f.acknowledgedThrough ∧ s.acknowledgedDigest = f.acknowledgedDigest ∧
        s.recoveryFloorOrdinal = f.recoveryFloor.ordinal ∧
        s.recoveryFloorDigest = f.recoveryFloor.digest ∧
        s.checkpointReadyThrough = f.readyThrough ∧ s.checkpointReadyDigest = f.readyDigest := by
  subst h
  exact ⟨rfl, rfl, rfl, rfl, rfl, rfl⟩

/-- What one event can do to the frontiers. -/
inductive FrontierStep (s : RelaySnapshot) (ordinal : Nat) (digest : String) :
    RelayObservation → Frontier → Prop where
  | keep (o : RelayObservation) : FrontierStep s ordinal digest o s.frontier
  | unready (o : RelayObservation) :
      FrontierStep s ordinal digest o { s.frontier with readyThrough := none, readyDigest := none }
  | checkpoint {id barrier : String} {dispatch : RelayDispatchRecord} {n : Nat} {d : String} :
      s.dispatches.get? id = some dispatch →
      dispatch.command = .completeCheckpoint barrier →
      s.checkpointReadyThrough = some n → s.checkpointReadyDigest = some d →
      FrontierStep s ordinal digest (.commandCompleted id .checkpointCompleted)
        { s.frontier with
          recoveryFloor := { ordinal := n, digest := d }
          readyThrough := none
          readyDigest := none }
  | advance {id : String} {dispatch : RelayDispatchRecord} {through : RelayCursor} :
      s.dispatches.get? id = some dispatch →
      dispatch.command = .advanceRecoveryFloor through →
      s.recoveryFloorOrdinal ≤ through.ordinal →
      FrontierStep s ordinal digest (.commandCompleted id .recoveryFloorAdvanced)
        { s.frontier with recoveryFloor := through }
  | ready {id : String} :
      s.checkpointBarrier = some id →
      FrontierStep s ordinal digest (.checkpointReady id ordinal)
        { s.frontier with readyThrough := some ordinal, readyDigest := some digest }

section Frontier

variable {s s' : RelaySnapshot} {id : String} {ordinal : Nat} {digest : String}

@[simp]
theorem frontier_terminalize (state : RelayDispatchState)
    : (s.terminalize id state ordinal).frontier = s.frontier := rfl

@[simp]
theorem frontier_removeQueued (ids : List String) : (s.removeQueued ids).frontier = s.frontier := rfl

@[simp]
theorem frontier_dropContexts : (s.dropContexts id).frontier = s.frontier := rfl

@[simp]
theorem frontier_pushUserShellContext (result : UserShellResult)
    : (s.pushUserShellContext id ordinal result).frontier = s.frontier := rfl

@[simp]
theorem frontier_clearBarrier
    : s.clearBarrier.frontier = { s.frontier with readyThrough := none, readyDigest := none } := rfl

@[simp]
theorem frontier_setActiveUserShells (shells : BTreeMap String ActiveUserShell)
    : { s with activeUserShells := shells }.frontier = s.frontier := rfl

@[simp]
theorem frontier_setQueuedPrompts (queue : List StoredQueuedRelayCommand)
    : { s with queuedPrompts := queue }.frontier = s.frontier := rfl

theorem frontier_removePrompts {removed : List String}
    (h : s.removePrompts ordinal removed = .ok s') : s'.frontier = s.frontier := by
  unfold removePrompts at h
  split at h
  . cases h
  rename_i t hterm
  obtain ⟨_, ⟨_, _, rfl⟩, _⟩ := terminalizeRemovedPrompts_spec hterm
  cases h
  rfl

theorem frontier_startCommand {startedAtMs : Int} (h : s.startCommand id startedAtMs = .ok s')
    : s'.frontier = s.frontier ∨
        s'.frontier = { s.frontier with readyThrough := none, readyDigest := none } := by
  unfold startCommand at h
  split at h
  . cases h
  dsimp only at h
  split at h
  . left
    unfold startPrompt at h
    repeat' split at h
    all_goals cases h
    rfl
  . left
    unfold startSetConfig at h
    split at h
    all_goals cases h
    rfl
  . cases h
    exact Or.inl rfl
  . left
    unfold startUserShell at h
    split at h
    all_goals cases h
    rfl
  . right
    unfold startBarrier at h
    split at h
    all_goals cases h
    rfl
  . cases h
    exact Or.inl rfl

theorem frontier_releaseTerminated {f : Frontier} (h : s.frontier = f) (command : RelayCommand)
    : (s.releaseTerminated id command).frontier = f ∨
        (s.releaseTerminated id command).frontier
          = { f with readyThrough := none, readyDigest := none } := by
  subst h
  unfold releaseTerminated
  dsimp only
  split <;> split <;> split
  all_goals first | exact Or.inl rfl | exact Or.inr rfl

theorem frontier_terminateCommand {state : RelayDispatchState} {kind : RelayCommandKind}
    {message : String} (h : s.terminateCommand ordinal state id kind message = .ok s')
    : s'.frontier = s.frontier ∨
        s'.frontier = { s.frontier with readyThrough := none, readyDigest := none } := by
  unfold terminateCommand at h
  repeat' split at h
  all_goals try cases h
  all_goals
    apply frontier_releaseTerminated
    simp

variable {o : RelayObservation}

theorem frontierStep_of_keep (h : s'.frontier = s.frontier)
    : FrontierStep s ordinal digest o s'.frontier := by
  rw [h]
  exact .keep o

theorem frontierStep_of_or
    (h : s'.frontier = s.frontier ∨
      s'.frontier = { s.frontier with readyThrough := none, readyDigest := none })
    : FrontierStep s ordinal digest o s'.frontier := by
  rcases h with h | h <;> rw [h]
  . exact .keep o
  . exact .unready o

theorem frontierStep_completeCommand {outcome : RelayCommandOutcome}
    (h : s.completeCommand ordinal id outcome = .ok s')
    : FrontierStep s ordinal digest (.commandCompleted id outcome) s'.frontier := by
  unfold completeCommand at h
  split at h
  . cases h
  rename_i dispatch hd
  split at h
  . cases h
  unfold completeOutcome at h
  split at h
  . cases h
    exact frontierStep_of_keep rfl
  . unfold completeUserShell at h
    split at h
    all_goals cases h
    exact frontierStep_of_keep rfl
  . cases h
    exact frontierStep_of_keep rfl
  next queuedCommandId removed hc =>
    unfold completeRemoval at h
    generalize (if (s.terminalize id .completed ordinal).queuedPrompts.any
      (·.commandId = queuedCommandId) then some [queuedCommandId] else none) = expected at h
    dsimp only at h
    split at h
    . cases h
    exact frontierStep_of_keep ((frontier_removePrompts h).trans (frontier_terminalize _))
  . unfold completeClear at h
    split at h
    . cases h
    exact frontierStep_of_keep ((frontier_removePrompts h).trans (frontier_terminalize _))
  iterate 3
    cases h
    exact frontierStep_of_keep rfl
  . unfold completeSteering at h
    repeat' split at h
    all_goals cases h
    apply frontierStep_of_keep
    simp
  . cases h
    exact frontierStep_of_keep rfl
  next barrier hc =>
    unfold completeBarrier at h
    split at h
    . cases h
    split at h
    . cases h
    rename_i n hn
    split at h <;> cases h
    rename_i d hdigest
    rw [frontier_terminalize]
    exact .checkpoint hd hc hn hdigest
  . unfold releaseBarrier at h
    split at h
    . cases h
    split at h
    all_goals cases h
    apply frontierStep_of_or
    simp
  next through hc =>
    unfold advanceFloor at h
    split at h
    . cases h
    rename_i hle
    have hfloor : s.recoveryFloorOrdinal ≤ through.ordinal := Nat.le_of_not_lt hle
    cases h
    exact .advance hd hc hfloor
  . cases h
    exact frontierStep_of_keep rfl
  . cases h
  . cases h

theorem frontierStep_applyObservation
    (h : s.applyObservation ordinal digest o = .ok s')
    : FrontierStep s ordinal digest o s'.frontier := by
  unfold applyObservation at h
  split at h
  iterate 5
    cases h
    exact frontierStep_of_keep rfl
  . exact frontierStep_of_or (frontier_startCommand h)
  . exact frontierStep_completeCommand h
  . exact frontierStep_of_or (frontier_terminateCommand h)
  . exact frontierStep_of_or (frontier_terminateCommand h)
  . cases h
    exact frontierStep_of_keep rfl
  next id through =>
    unfold readyBarrier at h
    split at h
    . cases h
    split at h
    . cases h
    split at h
    . cases h
    rename_i hbarrier
    split at h <;> cases h
    rename_i hthrough
    rw [ne_eq, Decidable.not_not] at hbarrier hthrough
    subst hthrough
    exact .ready hbarrier
  iterate 2
    cases h
    exact frontierStep_of_keep rfl
  next update =>
    cases h
    apply frontierStep_of_keep
    unfold applySessionUpdate
    split <;> rfl
  all_goals
    cases h
    exact frontierStep_of_keep rfl

end Frontier

def StateStep (state state' : RelayDispatchState) : Prop :=
  state' = state ∨ state'.isTerminal ∨ state = .queued ∧ state' = .pending

structure Progresses (s s' : RelaySnapshot) (o : RelayObservation) : Prop where
  dispatches : ∀ id dispatch, s.dispatches.get? id = some dispatch →
    ∃ dispatch', s'.dispatches.get? id = some dispatch' ∧ dispatch'.command = dispatch.command ∧
      StateStep dispatch.state dispatch'.state
  handled : ∀ id handled, s.handledCommands.get? id = some handled →
    ∃ handled', s'.handledCommands.get? id = some handled' ∧
      handled'.acceptedOrdinal = handled.acceptedOrdinal
  fresh : ∀ id dispatch', s.dispatches.get? id = none → s'.dispatches.get? id = some dispatch' →
    dispatch'.state = .queued ∧ ∃ createdAtMs, o = .commandQueued id dispatch'.command createdAtMs

section Progress

variable {s s' : RelaySnapshot} {o : RelayObservation}

theorem Terminalizes.progresses {ids : List String} (h : s.Terminalizes s' ids)
    : s.Progresses s' o := by
  constructor
  . intro id dispatch hd
    by_cases hid : id ∈ ids
    . obtain ⟨state, _, hstate, hd', _⟩ := h.settled id hid
      rw [hd, Option.map_some] at hd'
      exact ⟨_, hd', rfl, Or.inr (Or.inl hstate)⟩
    . rw [(h.kept id hid).1]
      exact ⟨dispatch, hd, rfl, Or.inl rfl⟩
  . intro id handled hh
    by_cases hid : id ∈ ids
    . obtain ⟨_, ordinal, _, _, hh'⟩ := h.settled id hid
      rw [hh, Option.map_some] at hh'
      exact ⟨_, hh', rfl⟩
    . rw [(h.kept id hid).2]
      exact ⟨handled, hh, rfl⟩
  . intro id dispatch' hnone hsome
    by_cases hid : id ∈ ids
    . obtain ⟨_, _, _, hd', _⟩ := h.settled id hid
      rw [hd', hnone] at hsome
      cases hsome
    . rw [(h.kept id hid).1, hnone] at hsome
      cases hsome

theorem progresses_of_frame (hd : s'.dispatches = s.dispatches)
    (hh : s'.handledCommands = s.handledCommands) : s.Progresses s' o := by
  apply Terminalizes.progresses
  exact (terminalizes_refl s).congr hd hh

theorem Starts.progresses {id : String} {command : RelayCommand} (h : s.Starts s' id command)
    {e : LedgerEntry} (hstart : s.ledger.Startable id e) : s.Progresses s' o := by
  obtain ⟨started, hstarted, _, hphase⟩ := dispatch_of_entry hstart.entry
  rw [hstart.queued, RelayDispatchState.phase_eq_queued] at hphase
  constructor
  . intro id' dispatch hd
    rw [h.dispatches, get?_dispatches_setDispatchState]
    split
    next heq =>
      rw [heq, hstarted, Option.some.injEq] at hd
      subst hd
      rw [heq, hstarted]
      exact ⟨_, rfl, rfl, Or.inr (Or.inr ⟨hphase, rfl⟩)⟩
    next => exact ⟨dispatch, hd, rfl, Or.inl rfl⟩
  . rw [h.handled]
    intro id' handled hh
    exact ⟨handled, hh, rfl⟩
  . intro id' dispatch' hnone hsome
    rw [h.dispatches, get?_dispatches_setDispatchState, hnone] at hsome
    split at hsome <;> cases hsome

theorem progresses_queueCommand {ordinal : Nat} {id : String} {command : RelayCommand}
    {createdAtMs : Int} (ha : s.Aligned) (hid : s.handledCommands.get? id = none)
    : s.Progresses (s.queueCommand ordinal id command createdAtMs)
        (.commandQueued id command createdAtMs) := by
  constructor
  . intro id' dispatch hd
    have hne : id' ≠ id := by
      intro heq
      obtain ⟨handled, hh, _⟩ := ha.handled_of_dispatch hd
      rw [heq, hid] at hh
      cases hh
    simp only [queueCommand, BTreeMap.get?_insert, hne, ↓reduceIte]
    exact ⟨dispatch, hd, rfl, Or.inl rfl⟩
  . intro id' handled hh
    have hne : id' ≠ id := by
      intro heq
      rw [heq, hid] at hh
      cases hh
    simp only [queueCommand, BTreeMap.get?_insert, hne, ↓reduceIte]
    exact ⟨handled, hh, rfl⟩
  . intro id' dispatch' hnone hsome
    simp only [queueCommand, BTreeMap.get?_insert] at hsome
    split at hsome
    next heq =>
      rw [Option.some.injEq] at hsome
      subst hsome heq
      exact ⟨rfl, createdAtMs, rfl⟩
    next =>
      rw [hnone] at hsome
      cases hsome

theorem progresses_applyObservation {ordinal : Nat} {digest : String} (hs : s.Sound)
    (hadm : s.Admissible o) (h : s.applyObservation ordinal digest o = .ok s')
    : s.Progresses s' o := by
  unfold applyObservation at h
  split at h
  iterate 4
    cases h
    exact progresses_of_frame rfl rfl
  . cases h
    exact progresses_queueCommand hs.aligned hadm.1
  . obtain ⟨e, hstart⟩ := hadm
    exact (hs.starts hstart h).progresses hstart
  . obtain ⟨dispatch, hd, hprog⟩ := hadm
    obtain ⟨ids, hdischarges⟩ := hs.completeCommand hd hprog h
    exact hdischarges.toTerminalizes.progresses
  . exact (hs.terminateCommand rfl h).1.toTerminalizes.progresses
  . exact (hs.terminateCommand rfl h).1.toTerminalizes.progresses
  . cases h
    exact progresses_of_frame rfl rfl
  . unfold readyBarrier at h
    repeat' split at h
    all_goals cases h
    exact progresses_of_frame rfl rfl
  . cases h
    exact progresses_of_frame rfl rfl
  . cases h
    exact progresses_of_frame rfl rfl
  next update =>
    cases h
    unfold applySessionUpdate
    split <;> exact progresses_of_frame rfl rfl
  all_goals
    cases h
    exact progresses_of_frame rfl rfl

end Progress

end RelaySnapshot

end Hel
