import Hel.Data.Numbered
import Hel.Worker.Impl.Claim
import Hel.Worker.Lemmas.Effect
import Mathlib.Logic.Relation

/-!
This module contains the chronicle of a relay, the events it journaled together with the snapshot
they lead to, and the transitions that every operation of the relay is made of.
-/

namespace Hel

open RelaySnapshot

variable {codec : RelayCodec} {event : RelayEvent} {s : RelaySnapshot} {id : String}

structure Genuine (codec : RelayCodec) (event : RelayEvent) : Prop where
  stamped : event
    = stampEvent codec event.ordinal event.recordedAtMs event.commandId event.observation
  len_le : codec.eventLen event ≤ RELAY_EVENT_BYTE_BUDGET

theorem Genuine.digest (h : Genuine codec event)
    : event.digest
        = codec.digestV2 event.ordinal event.recordedAtMs event.commandId event.observation := by
  rw [h.stamped]
  rfl

theorem Genuine.format (h : Genuine codec event) : event.format = RELAY_EVENT_FORMAT_V2 := by
  rw [h.stamped]
  rfl

theorem Genuine.previousDigest (h : Genuine codec event) : event.previousDigest = "" := by
  rw [h.stamped]
  rfl

theorem Genuine.isRelayDigest (h : Genuine codec event) : isRelayDigest event.digest := by
  rw [h.digest]
  exact codec.digestV2_isRelayDigest _ _ _ _

theorem Genuine.validateSelf (h : Genuine codec event)
    : validateRelayEventSelf codec event = .ok () := by
  unfold validateRelayEventSelf validateRelayDigest
  simp only [h.isRelayDigest, ↓reduceIte]
  unfold relayEventDigest
  simp [h.format, h.previousDigest, h.digest, RELAY_EVENT_FORMAT_V1, RELAY_EVENT_FORMAT_V2]

structure Origin extends RelayCursor where
  wellFormed : isRelayDigest digest
  genesis : ordinal = 0 ↔ digest = RELAY_EVENT_GENESIS_DIGEST
  -- Whether moves of the recovery floor are accepted only up to the cut of a ready checkpoint.
  guarded : Prop

def OnChain (origin : Origin) (history : List RelayEvent) (ordinal : Nat) (digest : String) : Prop :=
  ordinal = origin.ordinal ∧ digest = origin.digest ∨
    ∃ event ∈ history, event.ordinal = ordinal ∧ event.digest = digest

structure Recorded (codec : RelayCodec) (origin : Origin) (history : List RelayEvent) : Prop where
  numbered : Numbered RelayEvent.ordinal origin.ordinal history
  genuine : ∀ event ∈ history, Genuine codec event
  bounded : ∀ event ∈ history, event.ordinal ≤ U64_MAX

section OnChain

variable {codec : RelayCodec} {origin : Origin} {history : List RelayEvent} {ordinal : Nat}
  {digest digest' : String}

variable (h : OnChain origin history ordinal digest)

include h

theorem OnChain.append (events : List RelayEvent)
    : OnChain origin (history ++ events) ordinal digest := by
  cases h with
  | inl h => exact Or.inl h
  | inr h =>
    obtain ⟨event, hmem, h⟩ := h
    exact Or.inr ⟨event, List.mem_append_left _ hmem, h⟩

theorem OnChain.unique (hr : Recorded codec origin history)
    (h' : OnChain origin history ordinal digest') : digest = digest' := by
  cases h with
  | inl h =>
    cases h' with
    | inl h' => rw [h.2, h'.2]
    | inr h' =>
    obtain ⟨event, hmem, hordinal, _⟩ := h'
    have := (hr.numbered.bounds hmem).1
    omega
  | inr h =>
  obtain ⟨event, hmem, hordinal, hdigest⟩ := h
  cases h' with
  | inl h' =>
    have := (hr.numbered.bounds hmem).1
    omega
  | inr h' =>
  obtain ⟨event', hmem', hordinal', hdigest'⟩ := h'
  have heq := hr.numbered.unique hmem hmem' (by omega)
  rw [← hdigest, ← hdigest', heq]

theorem OnChain.bounds (hr : Recorded codec origin history)
    : origin.ordinal ≤ ordinal ∧ ordinal ≤ origin.ordinal + history.length := by
  cases h with
  | inl h => omega
  | inr h =>
  obtain ⟨event, hmem, hordinal, _⟩ := h
  have := hr.numbered.bounds hmem
  omega

theorem OnChain.isRelayDigest (hr : Recorded codec origin history) : isRelayDigest digest := by
  cases h with
  | inl h =>
    rw [h.2]
    exact origin.wellFormed
  | inr h =>
  obtain ⟨event, hmem, _, hdigest⟩ := h
  rw [← hdigest]
  exact (hr.genuine event hmem).isRelayDigest

theorem OnChain.genesis (hr : Recorded codec origin history)
    : ordinal = 0 ↔ digest = RELAY_EVENT_GENESIS_DIGEST := by
  cases h with
  | inl h =>
    rw [h.1, h.2]
    exact origin.genesis
  | inr h =>
  obtain ⟨event, hmem, hordinal, hdigest⟩ := h
  have hpos := (hr.numbered.bounds hmem).1
  have hne : event.digest ≠ RELAY_EVENT_GENESIS_DIGEST := by
    rw [(hr.genuine event hmem).digest]
    exact codec.digestV2_ne_genesis _ _ _ _
  rw [← hdigest]
  constructor
  . intro h
    omega
  . intro h
    exact absurd h hne

end OnChain

structure Frontiers (origin : Origin) (history : List RelayEvent) (s : RelaySnapshot) : Prop where
  latest : OnChain origin history s.latestOrdinal s.latestDigest
  acknowledged : OnChain origin history s.acknowledgedThrough s.acknowledgedDigest
  acknowledged_le : s.acknowledgedThrough ≤ s.latestOrdinal
  floor : OnChain origin history s.recoveryFloorOrdinal s.recoveryFloorDigest
  floor_le : s.recoveryFloorOrdinal ≤ s.latestOrdinal
  floor_lt : s.recoveryFloorOrdinal < s.latestOrdinal ∨ s.latestOrdinal = origin.ordinal
  ready : ∀ n, s.checkpointReadyThrough = some n → n ≤ s.latestOrdinal ∧
    ∃ d, s.checkpointReadyDigest = some d ∧ OnChain origin history n d
  advances : ∀ id dispatch through, s.dispatches.get? id = some dispatch →
    dispatch.command = .advanceRecoveryFloor through → dispatch.state.isTerminal = false →
    through.ordinal ≤ s.latestOrdinal ∧ OnChain origin history through.ordinal through.digest

def CommandBounded (codec : RelayCodec) (command : RelayCommand) : Prop :=
  command.kind = .runUserShell ∨ command.kind = .recordNotice →
    codec.commandLen command ≤ RELAY_COMMAND_BYTE_BUDGET

def FloorSafe (s : RelaySnapshot) (command : RelayCommand) : Prop :=
  ∀ through cut, command = .advanceRecoveryFloor through → s.checkpointReadyThrough = some cut →
    through.ordinal ≤ cut

structure Steady (s : RelaySnapshot) : Prop where
  floor : ∀ cut, s.checkpointReadyThrough = some cut → s.recoveryFloorOrdinal ≤ cut
  advances : ∀ cut, s.checkpointReadyThrough = some cut → ∀ id dispatch through,
    s.dispatches.get? id = some dispatch → dispatch.command = .advanceRecoveryFloor through →
    dispatch.state.isTerminal = false → through.ordinal ≤ cut

structure Chronicle where
  history : List RelayEvent
  held : RelaySnapshot
  collected : Nat

structure Chronicle.Valid (codec : RelayCodec) (origin : Origin) (c : Chronicle) : Prop where
  recorded : Recorded codec origin c.history
  latest_eq : c.held.latestOrdinal = origin.ordinal + c.history.length
  frontiers : Frontiers origin c.history c.held
  sound : c.held.Sound
  bounded : ∀ id dispatch, c.held.dispatches.get? id = some dispatch →
    CommandBounded codec dispatch.command
  steady : origin.guarded → Steady c.held
  kept : origin.guarded → c.collected ≤ c.held.retainedThrough

section Transition

variable (codec : RelayCodec) (origin : Origin) (Accepts : RelaySnapshot → RelayCommand → Prop)

def Permitted (c : Chronicle) : RelayObservation → Prop
  | .commandQueued _ command _ =>
    Accepts c.held command ∧ (origin.guarded → FloorSafe c.held command) ∧
      CommandBounded codec command ∧ ∀ through, command = .advanceRecoveryFloor through →
        through.ordinal ≤ c.held.latestOrdinal ∧
          OnChain origin c.history through.ordinal through.digest
  | _ => True

/--
The transitions of a relay. An event is journaled, old events are removed from the journal, and
everything else is written with the snapshot.
-/
inductive Transition : Chronicle → Chronicle → Prop where
  | journal {c : Chronicle} {event : RelayEvent} {next : RelaySnapshot} :
      Genuine codec event → c.held.Admissible event.observation →
      Permitted codec origin Accepts c event.observation →
      applyRelayEvent codec c.held event = .ok next →
      Transition c { c with history := c.history ++ [event], held := next }
  | claim {c : Chronicle} {id : String} {accepted : Nat} {dispatch : RelayDispatchRecord} :
      c.held.dispatches.get? id = some dispatch → dispatch.state = .pending →
      (∀ barrier, c.held.checkpointBarrier = some barrier → id = barrier) →
      Transition c { c with held := (claimCommand c.held id accepted dispatch.command).1 }
  | acknowledge {c : Chronicle} {ordinal : Nat} {digest : String} :
      OnChain origin c.history ordinal digest → c.held.acknowledgedThrough < ordinal →
      ordinal ≤ c.held.latestOrdinal →
      Transition c
        { c with
          held := { c.held with acknowledgedThrough := ordinal, acknowledgedDigest := digest } }
  | context {c : Chronicle} (context : Option PendingPromptContext) :
      Transition c { c with held := { c.held with pendingPromptContext := context } }
  | forget {c : Chronicle} {id : String} {handled : HandledRelayCommand} :
      c.held.handledCommands.get? id = some handled → handled.terminalOrdinal.isSome →
      Transition c { c with held := forgetCommand c.held id }
  | reclose {c : Chronicle} {id : String} {dispatch : RelayDispatchRecord} :
      c.held.dispatches.get? id = some dispatch → dispatch.command.isClose →
      dispatch.state = .inFlight →
      Transition c { c with held := c.held.setDispatchState id .pending }
  | collect {c : Chronicle} :
      Transition c { c with collected := c.held.retainedThrough }

def Evolves : Chronicle → Chronicle → Prop :=
  Relation.ReflTransGen (Transition codec origin Accepts)

end Transition

variable {dispatch : RelayDispatchRecord}

theorem RelaySnapshot.Sound.setInProgress (hs : s.Sound)
    (state : RelayDispatchState) (hd : s.dispatches.get? id = some dispatch)
    (hprog : dispatch.state.inProgress) (hstate : state.inProgress)
    : (s.setDispatchState id state).Sound := by
  have hphase := RelayDispatchState.phase_eq_started.mpr hprog
  have hphase' := RelayDispatchState.phase_eq_started.mpr hstate
  have hopen : state.isTerminal = dispatch.state.isTerminal := by
    have h1 : state.phase = .settled ↔ state.isTerminal := RelayDispatchState.phase_eq_settled
    have h2 : dispatch.state.phase = .settled ↔ dispatch.state.isTerminal :=
      RelayDispatchState.phase_eq_settled
    rw [hphase'] at h1
    rw [hphase] at h2
    simp at h1 h2
    rw [h1, h2]
  refine ⟨hs.aligned.setDispatchState hd hopen, ?_⟩
  have hledger : (s.setDispatchState id state).ledger = s.ledger := by
    ext1
    . funext id'
      show (s.setDispatchState id state).ledgerEntry id' = s.ledgerEntry id'
      rw [ledgerEntry_setDispatchState]
      split
      next heq =>
        obtain ⟨n, hn⟩ := hs.aligned.entry_of_dispatch hd
        change s.ledgerEntry id = _ at hn
        rw [heq, hn, Option.map_some, hphase', hphase]
      next => rfl
    . rfl
    . rfl
    . rfl
    . rfl
    . rfl
  rw [hledger]
  exact hs.invariant

theorem claimCommand_frame (s : RelaySnapshot) (id : String) (accepted : Nat)
    (command : RelayCommand)
    : ∃ promptContext shellContexts,
        (claimCommand s id accepted command).1
          = { s.setDispatchState id .inFlight with
              pendingPromptContext := promptContext
              pendingUserShellContexts := shellContexts } := by
  unfold claimCommand
  dsimp only
  split
  . exact ⟨_, _, rfl⟩
  . exact ⟨s.pendingPromptContext, s.pendingUserShellContexts, rfl⟩

theorem RelaySnapshot.Sound.claimCommand (hs : s.Sound)
    (hd : s.dispatches.get? id = some dispatch) (hprog : dispatch.state.inProgress) (accepted : Nat)
    : (claimCommand s id accepted dispatch.command).1.Sound := by
  obtain ⟨promptContext, shellContexts, hframe⟩ :=
    claimCommand_frame s id accepted dispatch.command
  rw [hframe]
  have hset := hs.setInProgress .inFlight hd hprog rfl
  exact hset.congr rfl rfl rfl rfl rfl rfl (Nat.le_refl _)

theorem RelaySnapshot.Sound.forgetCommand (hs : s.Sound) {handled : HandledRelayCommand}
    (hh : s.handledCommands.get? id = some handled) (hterminal : handled.terminalOrdinal.isSome)
    : (forgetCommand s id).Sound := by
  obtain ⟨dispatch, hd, _⟩ := hs.aligned.dispatch_of_handled hh
  have hsettled := (hs.aligned.terminal id dispatch handled hd hh).mp hterminal
  constructor
  . constructor
    . intro id'
      simp only [Hel.forgetCommand, BTreeMap.get?_remove]
      split
      . rfl
      . exact hs.aligned.commands id'
    . intro id' dispatch' handled' hd' hh'
      simp only [Hel.forgetCommand, BTreeMap.get?_remove] at hd' hh'
      split at hd'
      . cases hd'
      next hne =>
        simp only [hne, ↓reduceIte] at hh'
        exact hs.aligned.terminal id' dispatch' handled' hd' hh'
    . intro id' handled' hh'
      simp only [Hel.forgetCommand, BTreeMap.get?_remove] at hh'
      split at hh'
      . cases hh'
      . exact hs.aligned.identifiers id' handled' hh'
  have hledger : (Hel.forgetCommand s id).ledger = s.ledger.forget id := by
    ext1
    . funext id'
      simp only [ledger, ledgerEntry, Hel.forgetCommand,
        BTreeMap.get?_remove, Ledger.forget, Function.update_apply]
      split
      . rfl
      . rfl
    . rfl
    . rfl
    . rfl
    . rfl
    . rfl
  rw [hledger]
  apply hs.invariant.forget
  intro e he
  obtain ⟨dispatch', hd', _, hphase⟩ := dispatch_of_entry he
  rw [hd, Option.some.injEq] at hd'
  rw [← hphase, ← hd']
  exact RelayDispatchState.phase_of_isTerminal hsettled

section Journal

variable {codec : RelayCodec} {origin : Origin} {history : List RelayEvent}
  {s s' : RelaySnapshot} {event : RelayEvent}

theorem onChain_of_last (history : List RelayEvent) (event : RelayEvent)
    : OnChain origin (history ++ [event]) event.ordinal event.digest :=
  Or.inr ⟨event, by simp, rfl, rfl⟩

variable {dispatch' : RelayDispatchRecord}

theorem RelaySnapshot.Progresses.source {next : RelaySnapshot} {o : RelayObservation}
    (h : s.Progresses next o) (hd : next.dispatches.get? id = some dispatch')
    : (∃ createdAtMs, o = .commandQueued id dispatch'.command createdAtMs) ∨
        ∃ dispatch, s.dispatches.get? id = some dispatch ∧
          dispatch'.command = dispatch.command ∧ StateStep dispatch.state dispatch'.state := by
  cases hold : s.dispatches.get? id with
  | none => exact Or.inl (h.fresh id dispatch' hold hd).2
  | some dispatch =>
  obtain ⟨dispatch'', hget, hstep⟩ := h.dispatches id dispatch hold
  cases hd.symm.trans hget
  exact Or.inr ⟨dispatch, rfl, hstep⟩

theorem advance_of_progresses {next : RelaySnapshot} {o : RelayObservation}
    (h : s.Progresses next o)
    (hd : next.dispatches.get? id = some dispatch') (hopen : dispatch'.state.isTerminal = false)
    : (∃ createdAtMs, o = .commandQueued id dispatch'.command createdAtMs) ∨
        ∃ dispatch, s.dispatches.get? id = some dispatch ∧
          dispatch.command = dispatch'.command ∧ dispatch.state.isTerminal = false := by
  apply (h.source hd).imp_right
  intro ⟨dispatch, hold, hcommand, hstep⟩
  refine ⟨dispatch, hold, hcommand.symm, ?_⟩
  rcases hstep with hsame | hterminal | ⟨hqueued, _⟩
  . rw [← hsame]
    exact hopen
  . rw [hopen] at hterminal
    cases hterminal
  . rw [hqueued]
    rfl

theorem Frontiers.journal (hs : s.Sound)
    (h : Frontiers origin history s) (hadm : s.Admissible event.observation)
    (hpermitted : ∀ id through createdAtMs,
      event.observation = .commandQueued id (.advanceRecoveryFloor through) createdAtMs →
      through.ordinal ≤ s.latestOrdinal ∧ OnChain origin history through.ordinal through.digest)
    (happly : applyRelayEvent codec s event = .ok s')
    : Frontiers origin (history ++ [event]) s' := by
  obtain ⟨hordinal, hlatest, hdigest⟩ := ordinal_of_applyRelayEvent happly
  obtain ⟨_, next, hnext, heq⟩ := applyRelayEvent_eq_ok happly
  have hfrontier : s'.frontier = next.frontier := by
    rw [heq]
    rfl
  have hstep := frontierStep_applyObservation hnext
  rw [← hfrontier] at hstep
  have hprogress := progresses_applyObservation hs hadm hnext
  have hack := h.acknowledged_le
  have hfloor := h.floor_le
  suffices hcases : OnChain origin (history ++ [event]) s'.acknowledgedThrough s'.acknowledgedDigest ∧
      s'.acknowledgedThrough ≤ s.latestOrdinal ∧
      OnChain origin (history ++ [event]) s'.recoveryFloorOrdinal s'.recoveryFloorDigest ∧
      s'.recoveryFloorOrdinal ≤ s.latestOrdinal ∧
      ∀ n, s'.checkpointReadyThrough = some n → n ≤ s'.latestOrdinal ∧
        ∃ d, s'.checkpointReadyDigest = some d ∧ OnChain origin (history ++ [event]) n d by
    obtain ⟨h1, h2, h3, h4, h5⟩ := hcases
    constructor
    . rw [hlatest, ← hordinal, hdigest]
      exact onChain_of_last history event
    . exact h1
    . omega
    . exact h3
    . omega
    . left
      omega
    . exact h5
    intro id dispatch' through hd' hcommand hopen
    have hd'' : next.dispatches.get? id = some dispatch' := by
      rw [heq] at hd'
      exact hd'
    rw [hlatest]
    rcases advance_of_progresses hprogress hd'' hopen with ⟨createdAtMs, hqueued⟩ | hold
    . rw [hcommand] at hqueued
      obtain ⟨hle, hchain⟩ := hpermitted id through createdAtMs hqueued
      exact ⟨by omega, hchain.append _⟩
    obtain ⟨dispatch, hd, hc, hopen⟩ := hold
    obtain ⟨hle, hchain⟩ := h.advances id dispatch through hd (hc.trans hcommand) hopen
    exact ⟨by omega, hchain.append _⟩
  have hready := h.ready
  generalize hf : s'.frontier = f at hstep
  generalize ho : event.observation = o at hstep
  obtain ⟨e1, e2, e3, e4, e5, e6⟩ := frontier_fields hf
  rw [e1, e2, e3, e4, e5, e6]
  cases hstep with
  | keep =>
    refine ⟨h.acknowledged.append _, hack, h.floor.append _, hfloor, ?_⟩
    intro n hn
    obtain ⟨hle, d, hd, hchain⟩ := hready n hn
    exact ⟨by omega, d, hd, hchain.append _⟩
  | unready => exact ⟨h.acknowledged.append _, hack, h.floor.append _, hfloor, nofun⟩
  | checkpoint _ _ hn hd =>
    obtain ⟨hle, d', hd', hchain⟩ := hready _ hn
    cases hd.symm.trans hd'
    exact ⟨h.acknowledged.append _, hack, hchain.append _, hle, nofun⟩
  | advance hd hcommand hle =>
    rw [ho] at hadm
    obtain ⟨dispatch', hd', hprog⟩ := hadm
    cases hd.symm.trans hd'
    have hopen := RelayDispatchState.not_isTerminal_of_inProgress hprog
    obtain ⟨hthrough, hchain⟩ := h.advances _ _ _ hd hcommand hopen
    refine ⟨h.acknowledged.append _, hack, hchain.append _, hthrough, ?_⟩
    intro n hn
    obtain ⟨hle, d, hd, hchain⟩ := hready n hn
    exact ⟨by omega, d, hd, hchain.append _⟩
  | ready =>
    refine ⟨h.acknowledged.append _, hack, h.floor.append _, hfloor, ?_⟩
    intro n hn
    cases hn
    exact ⟨by omega, _, rfl, onChain_of_last history event⟩

theorem Recorded.snoc (hr : Recorded codec origin history) (hg : Genuine codec event)
    (hordinal : event.ordinal = origin.ordinal + history.length + 1)
    (hmax : event.ordinal ≤ U64_MAX) : Recorded codec origin (history ++ [event]) := by
  constructor
  . rw [numbered_append]
    exact ⟨hr.numbered, hordinal, trivial⟩
  . rw [List.forall_mem_append, List.forall_mem_singleton]
    exact ⟨hr.genuine, hg⟩
  . rw [List.forall_mem_append, List.forall_mem_singleton]
    exact ⟨hr.bounded, hmax⟩

end Journal

end Hel
