import Hel.Worker.Lemmas.Mention
import Hel.Worker.Recovery

/-!
This module contains what holds of the snapshot of a relay over all of its runs.
-/

namespace Hel

variable {codec : RelayCodec} {origin : Origin} {Accepts : RelaySnapshot → RelayCommand → Prop}
  {sessionId : String} {c c' : Chronicle} {sys sys' : System} {handled : HandledRelayCommand}
  {id : String}

section Barrier

variable {sys : System} {w : World}

structure Excludes (s : RelaySnapshot) : Prop where
  quiet : ∀ id dispatch, s.dispatches.get? id = some dispatch →
    dispatch.command.isEffectfulAcp ∨ dispatch.command.isEffectfulUserShell →
    dispatch.state ≠ .pending ∧ dispatch.state ≠ .inFlight
  idle : s.activePrompt = none

theorem RelaySnapshot.Sound.excludes {s : RelaySnapshot} (hs : s.Sound)
    (hb : s.checkpointBarrier.isSome) : Excludes s := by
  constructor
  . intro id dispatch hd heffect
    obtain ⟨n, he⟩ := hs.aligned.entry_of_dispatch hd
    have heffect' : Ledger.effectful dispatch.command := by
      unfold Ledger.effectful
      rw [Bool.or_eq_true]
      exact heffect
    have hphase := hs.invariant.quiet hb id _ he heffect'
    have hprogress : dispatch.state.inProgress ≠ true := fun h =>
      hphase (RelayDispatchState.phase_eq_started.mpr h)
    constructor
    all_goals
      intro hstate
      rw [hstate] at hprogress
      exact hprogress rfl
  . have hnone : s.activePromptId = none := hs.invariant.active_none_of_barrier hb
    unfold RelaySnapshot.activePromptId at hnone
    exact Option.map_eq_none_iff.mp hnone

theorem HandsOut.under_barrier {c c' : Chronicle} {claimed : List ClaimedRelayCommand}
    (h : HandsOut codec origin Accepts c c' claimed) {barrier : String}
    (hb : c.held.checkpointBarrier = some barrier)
    : claimed.map (·.commandId) = [] ∨ claimed.map (·.commandId) = [barrier] := by
  obtain ⟨c₁, _, _, hsame, hclaims⟩ := h.eligible
  have heq := hsame (by rw [hb]; rfl)
  subst heq
  have hall : ∀ id ∈ claimed.map (·.commandId), id = barrier := by
    intro id hmem
    obtain ⟨claim, hclaim, rfl⟩ := List.mem_map.mp hmem
    obtain ⟨⟨_, _, _, _, _, _, honly⟩, _⟩ := hclaims claim hclaim
    exact honly barrier hb
  have hnodup := h.nodup
  generalize claimed.map (·.commandId) = ids at hall hnodup
  cases ids with
  | nil => exact Or.inl rfl
  | cons first rest =>
  right
  cases rest with
  | nil => rw [hall first (by simp)]
  | cons second rest =>
  have := hall first (by simp)
  have := hall second (by simp)
  simp_all

theorem recordCheckpointReady_at_event (h : Live codec origin sessionId w) (id : String)
    : ReadyAt id w.chronicle
        { (recordCheckpointReady codec id w).2.chronicle with
          held := (recordCheckpointReady codec id w).2.relay.snapshot } := by
  have hready := recordCheckpointReady_readyAt h id
  have hdoes : Does codec origin Anything sessionId False (fun _ _ => True) w
      (recordCheckpointReady codec id) := recordCheckpointReady_does h
  unfold Does at hdoes
  generalize recordCheckpointReady codec id w = result at hready hdoes
  match result with
  | (.ok _, w') =>
    dsimp only
    rw [hdoes.1.live.snapshot]
    exact hready
  | (.error _, w') =>
    dsimp only
    rw [hdoes.live.snapshot]
    exact hready
  | (.crash, w') =>
    dsimp only
    rw [hdoes.snapshot]
    exact hready

structure Barred (codec : RelayCodec) (sys : System) (barrier : String) : Prop where
  excludes : Excludes sys.world.relay.snapshot
  claims : ∀ op schedule claimed, (execute codec op (sys.world.under schedule)).1 = .ok claimed →
    claimed.map (·.commandId) = [] ∨ claimed.map (·.commandId) = [barrier]
  ready : ∀ schedule, ReadyAt barrier sys.world.chronicle
    { (recordCheckpointReady codec barrier (sys.world.under schedule)).2.chronicle with
      held := (recordCheckpointReady codec barrier (sys.world.under schedule)).2.relay.snapshot }

theorem barred (h : Reachable codec sessionId (fun _ _ => True) sys) (hrunning : sys.running)
    {barrier : String} (hb : sys.world.relay.snapshot.checkpointBarrier = some barrier)
    : Barred codec sys barrier := by
  obtain ⟨origin, hguarded, hsane⟩ := h.sane
  have hlive := hsane.live hrunning
  have hheld := hlive.snapshot
  refine ⟨?_, ?_, ?_⟩
  . rw [hheld] at hb ⊢
    apply hlive.valid.sound.excludes
    show (sys.world.held.checkpointBarrier).isSome
    rw [hb]
    rfl
  . intro op schedule claimed hclaimed
    rw [hheld] at hb
    have hallows : Allows Anything origin.guarded sys.world.held op := by
      rw [← hheld]
      exact permits_anything hguarded sys (.operate op schedule)
    have hdoes := execute_does (hlive.schedule schedule) op hallows
    unfold Does at hdoes
    unfold World.under at hclaimed
    generalize execute codec op { sys.world with schedule := schedule } = result at hdoes hclaimed
    match result with
    | (.ok claimed', w') =>
      dsimp only at hclaimed
      rw [Outcome.ok.injEq] at hclaimed
      subst hclaimed
      exact HandsOut.under_barrier hdoes.2 hb
    | (.error _, _) => cases hclaimed
    | (.crash, _) => cases hclaimed
  . intro schedule
    exact recordCheckpointReady_at_event (hlive.schedule schedule) barrier

/-- The command that was accepted under `id` by event `accepted` has not ended. -/
def Unended (s : RelaySnapshot) (id : String) (accepted : Nat) : Prop :=
  ∃ e, s.ledgerEntry id = some e ∧ e.accepted = accepted ∧ e.phase ≠ .settled

theorem phase_eq_started_of_rank_le {state state' : RelayDispatchState} (h : state.phase = .started)
    (hle : state.rank ≤ state'.rank) (hopen : state'.phase ≠ .settled) : state'.phase = .started := by
  cases state <;> cases state' <;> simp_all [RelayDispatchState.phase, RelayDispatchState.rank]

theorem Evolves.keeps_barrier (h : Evolves codec origin Accepts c c') (hv : c.Valid codec origin)
    {e : LedgerEntry} (he : c.held.ledgerEntry id = some e) (hphase : e.phase = .started)
    (hbegin : e.command.isBeginCheckpoint) (hopen : Unended c'.held id e.accepted)
    : c'.held.checkpointBarrier = some id := by
  obtain ⟨e', he', haccepted, hphase'⟩ := hopen
  have hle := hv.sound.invariant.accepted_le id e he
  obtain ⟨dispatch, handled, hd, -, rfl⟩ := RelaySnapshot.ledgerEntry_eq_some.mp he
  obtain ⟨dispatch', handled', hd', hh', rfl⟩ := RelaySnapshot.ledgerEntry_eq_some.mp he'
  rw [← haccepted] at hle
  obtain ⟨_, _, hsame, -, -, hcommand, hrank⟩ := h.descends hv id dispatch' handled' hd' hh' hle
  cases hd.symm.trans hsame
  have hnotClose : dispatch.command.isClose = false := by
    cases hc : dispatch.command <;> simp_all [RelayCommand.isBeginCheckpoint, RelayCommand.isClose]
  have hrank : dispatch.state.rank ≤ dispatch'.state.rank := by simpa [hnotClose] using hrank
  apply (Evolves.valid h hv).sound.invariant.barrier_complete id _ he'
  . exact phase_eq_started_of_rank_le hphase hrank hphase'
  . rw [hcommand]
    exact hbegin

/-- A barrier stays, and keeps everything else out, until its command ends. -/
theorem barrier_excludes_everything_else (h : Reachable codec sessionId (fun _ _ => True) sys)
    (hrunning : sys.running) {barrier : String}
    (hb : sys.world.relay.snapshot.checkpointBarrier = some barrier)
    : ∃ accepted, Unended sys.world.relay.snapshot barrier accepted ∧
      ∀ sys', Run codec sessionId (fun _ _ => True) sys sys' → sys'.running →
        Unended sys'.world.relay.snapshot barrier accepted →
        sys'.world.relay.snapshot.checkpointBarrier = some barrier ∧ Barred codec sys' barrier := by
  obtain ⟨origin, hguarded, hsane⟩ := h.sane
  have hallowed (sys action) (_ : True) := permits_anything hguarded sys action
  have hvalid := hsane.recoverable.valid
  rw [(hsane.live hrunning).snapshot] at hb ⊢
  obtain ⟨e, he, hphase, hbegin⟩ := hvalid.sound.invariant.barrier_sound barrier hb
  refine ⟨e.accepted, ⟨e, he, rfl, by simp [hphase]⟩, ?_⟩
  intro sys' hrun hrunning' hopen
  obtain ⟨hsane', hevolves⟩ := hrun.sane hallowed hsane
  have hheld := (hsane'.live hrunning').snapshot
  have hb' : sys'.world.relay.snapshot.checkpointBarrier = some barrier := by
    rw [hheld] at hopen ⊢
    exact hevolves.keeps_barrier hvalid he hphase hbegin hopen
  obtain ⟨seed, memory, schedule, start, hstart, hpath⟩ := h
  exact ⟨hb', barred ⟨seed, memory, schedule, start, hstart, hpath.trans hrun⟩ hrunning' hb'⟩

def barrierRun : List Action :=
  [openNow, perform (.submit "barrier-1" (.beginCheckpoint none)), perform (.claim true 1)]

def barredSystem : System :=
  (plainSystem barrierRun).next plainCodec "session-1" (perform (.submit "prompt-1" (.prompt [.null])))

theorem barrier_excludes_everything_else_of_claimed
    : barredSystem.world.relay.snapshot.queuedPrompts.length = 1 ∧
      Barred plainCodec barredSystem "barrier-1" := by
  have hrunning : (plainSystem barrierRun).running := rfl
  have hb : (plainSystem barrierRun).world.relay.snapshot.checkpointBarrier = some "barrier-1" := by
    decide +kernel
  have hentry : ((plainSystem barrierRun).world.relay.snapshot.ledgerEntry "barrier-1").map
      (·.accepted) = some 1 := rfl
  have hentry' : (barredSystem.world.relay.snapshot.ledgerEntry "barrier-1").map
      (fun e => (e.accepted, e.phase)) = some (1, .started) := rfl
  have hrun : Run plainCodec "session-1" (fun _ _ => True) (plainSystem barrierRun) barredSystem :=
    .step .refl hrunning trivial
  obtain ⟨accepted, ⟨e, he, rfl, -⟩, hstays⟩ := barrier_excludes_everything_else
    (reachable_plainSystem (fun _ _ _ => trivial)) hrunning hb
  obtain ⟨e', he', heq⟩ := Option.map_eq_some_iff.mp hentry'
  rw [Prod.mk.injEq] at heq
  rw [he, Option.map_some, Option.some.injEq] at hentry
  have hopen : Unended barredSystem.world.relay.snapshot "barrier-1" e.accepted :=
    ⟨e', he', by rw [heq.1, hentry], by simp [heq.2]⟩
  exact ⟨rfl, (hstays _ hrun rfl hopen).2⟩

end Barrier

section Frontier

theorem Evolves.floor_le (h : Evolves codec origin Accepts c c') (hv : c.Valid codec origin)
    (hguarded : origin.guarded) : c.held.recoveryFloorOrdinal ≤ c'.held.recoveryFloorOrdinal := by
  induction h with
  | refl => exact Nat.le_refl _
  | tail hpath hstep ih =>
    exact Nat.le_trans ih (hstep.steady (Evolves.valid hpath hv) hguarded).2

theorem frontiers_move_forward (h : Reachable codec sessionId FloorSafeStep sys)
    (hrun : Run codec sessionId FloorSafeStep sys sys') (hrunning : sys.running)
    (hrunning' : sys'.running)
    : sys.world.relay.snapshot.latestOrdinal ≤ sys'.world.relay.snapshot.latestOrdinal ∧
      sys.world.relay.snapshot.acknowledgedThrough
        ≤ sys'.world.relay.snapshot.acknowledgedThrough ∧
      sys.world.relay.snapshot.recoveryFloorOrdinal
        ≤ sys'.world.relay.snapshot.recoveryFloorOrdinal ∧
      sys'.world.relay.snapshot.acknowledgedThrough ≤ sys'.world.relay.snapshot.latestOrdinal ∧
      sys'.world.relay.snapshot.recoveryFloorOrdinal ≤ sys'.world.relay.snapshot.latestOrdinal ∧
      sys'.world.collected ≤ sys'.world.relay.snapshot.retainedThrough := by
  obtain ⟨origin, hguarded, hsane⟩ := reachable_sane True h permits_floorSafe
  have hguarded' : origin.guarded := hguarded ▸ trivial
  obtain ⟨hsane', hevolves⟩ := hrun.sane (by rw [hguarded]; exact permits_floorSafe) hsane
  have hvalid := hsane.recoverable.valid
  have hvalid' := hsane'.recoverable.valid
  rw [(hsane.live hrunning).snapshot, (hsane'.live hrunning').snapshot]
  exact ⟨hevolves.moves_on.2.1, hevolves.moves_on.2.2,
    Evolves.floor_le hevolves hvalid hguarded', hvalid'.frontiers.acknowledged_le,
    hvalid'.frontiers.floor_le, hvalid'.kept hguarded'⟩

theorem frontiers_move_forward_over_moved_floor
    : floorMoved.world.relay.snapshot.recoveryFloorOrdinal = 2 ∧
      (plainSystem readyRun).world.relay.snapshot.recoveryFloorOrdinal
        ≤ floorMoved.world.relay.snapshot.recoveryFloorOrdinal ∧
      floorMoved.world.collected ≤ floorMoved.world.relay.snapshot.retainedThrough := by
  obtain ⟨-, -, hfloor, -, -, hcollected⟩ := frontiers_move_forward reachable_readyRun run_floorMoved
    rfl (by decide +kernel)
  exact ⟨by decide +kernel, hfloor, hcollected⟩

theorem recovery_floor_moves_back
    : Reachable plainCodec "session-1" (fun _ _ => True) (plainSystem floorRun) ∧
      (plainSystem (floorRun.take 7)).world.relay.snapshot.recoveryFloorOrdinal = 4 ∧
      (plainSystem floorRun).world.relay.snapshot.recoveryFloorOrdinal = 3 ∧
      (plainSystem floorRun).world.relay.snapshot.retainedThrough = 3 ∧
      (plainSystem floorRun).world.collected = 4 := by
  refine ⟨reachable_plainSystem (fun _ _ _ => trivial), ?_⟩
  decide +kernel

end Frontier

section Dispatch

def Terminal (s : RelaySnapshot) (id : String) (accepted : Nat) : Prop :=
  ∃ dispatch handled, s.dispatches.get? id = some dispatch ∧
    s.handledCommands.get? id = some handled ∧ handled.acceptedOrdinal = accepted ∧
    dispatch.state.isTerminal

theorem Terminal.reached {s : RelaySnapshot} {accepted : Nat} (h : Terminal s id accepted)
    (hs : s.Sound) : Reached 3 s id accepted := by
  obtain ⟨dispatch, handled, hd, hh, haccepted, hterminal⟩ := h
  refine ⟨haccepted ▸ hs.acceptedOrdinal_le hd hh, ?_⟩
  intro dispatch' handled' hd' _ _ _
  cases hd.symm.trans hd'
  rw [RelayDispatchState.rank_of_isTerminal.mpr hterminal]

-- Submitting a command again journals no second acceptance, and answers what the first one did.
theorem submitCommand_again {w : World} (h : Live codec origin sessionId w)
    (hh : w.held.handledCommands.get? id = some handled)
    : (∃ events, (submitCommand codec id handled.command w).2.history = w.history ++ events ∧
        ∀ event ∈ events, ¬ Queues event) ∧
      (codec.commandLen handled.command ≤ RELAY_COMMAND_BYTE_BUDGET → w.Calm →
        Room codec 4 w.held → Finishable w.held id handled.command →
        (submitCommand codec id handled.command w).1
          = .ok (.ok (.accepted id handled.acceptedOrdinal))) := by
  have hdoes : Does codec origin (fun _ _ => False) sessionId
      (Room codec 4 w.held ∧ (w.held.handledCommands.get? id).isSome ∧
        Finishable w.held id handled.command)
      (fun response _ => Answered w.held codec id handled.command response)
      w (submitCommand codec id handled.command) := by
    apply submitCommand_does h
    intro hnone
    rw [hh] at hnone
    cases hnone
  unfold Does at hdoes
  generalize submitCommand codec id handled.command w = result at hdoes
  match result with
  | (.ok response, w') =>
    obtain ⟨hadvanced, hanswered⟩ := hdoes
    refine ⟨Evolves.queues_none hadvanced.evolves, fun hlen _ _ _ => ?_⟩
    rw [hanswered handled hh rfl hlen]
  | (.error _, w') =>
    refine ⟨Evolves.queues_none hdoes.evolves, fun _ hcalm hroom hfinish => ?_⟩
    exact (hdoes.reason ⟨hcalm, hroom, by rw [hh]; rfl, hfinish⟩).elim
  | (.crash, w') =>
    refine ⟨Evolves.queues_none hdoes.evolves, fun _ hcalm _ _ => ?_⟩
    exact (hdoes.reason hcalm).elim

theorem commands_dispatch_at_most_once (h : Reachable codec sessionId (fun _ _ => True) sys)
    (hrun : Run codec sessionId (fun _ _ => True) sys sys')
    : sys.dispatched.Nodup ∧
      (∀ id accepted, Terminal sys.world.held id accepted →
        (∃ claimed, sys'.handedOut = sys.handedOut ++ claimed ∧
          ∀ claim ∈ claimed, ¬ (claim.commandId = id ∧ claim.acceptedOrdinal = accepted)) ∧
        ∀ dispatch handled, sys'.world.held.dispatches.get? id = some dispatch →
          sys'.world.held.handledCommands.get? id = some handled →
          handled.acceptedOrdinal = accepted → dispatch.state.isTerminal) ∧
      ∀ id handled schedule, sys.running →
        sys.world.relay.snapshot.handledCommands.get? id = some handled →
        (∃ events, (submitCommand codec id handled.command (sys.world.under schedule)).2.history
            = sys.world.history ++ events ∧ ∀ event ∈ events, ¬ Queues event) ∧
        (codec.commandLen handled.command ≤ RELAY_COMMAND_BYTE_BUDGET →
          (sys.world.under schedule).Calm → Room codec 4 sys.world.relay.snapshot →
          Finishable sys.world.relay.snapshot id handled.command →
          (submitCommand codec id handled.command (sys.world.under schedule)).1
            = .ok (.ok (.accepted id handled.acceptedOrdinal))) := by
  obtain ⟨origin, hguarded, hsane⟩ := h.sane
  have hallowed (sys action) (_ : True) := permits_anything hguarded sys action
  have hvalid := hsane.recoverable.valid
  refine ⟨hsane.once, ?_, ?_⟩
  . intro id accepted hterminal
    have hreached := hterminal.reached hvalid.sound
    refine ⟨hrun.settled hallowed hsane hreached, ?_⟩
    intro dispatch handled hd hh haccepted
    have hreached' := ((hrun.sane hallowed hsane).2.reached hvalid hreached).2
    have hrank := hreached' dispatch handled hd hh haccepted (Or.inr rfl)
    have hle := dispatch.state.rank_le
    exact RelayDispatchState.rank_of_isTerminal.mp (by omega)
  . intro id handled schedule hrunning hh
    have hlive := hsane.live hrunning
    rw [hlive.snapshot] at hh ⊢
    exact submitCommand_again (hlive.schedule schedule) hh

def claimRun : List Action :=
  [openNow, perform (.submit "prompt-1" (.prompt [.null])), perform (.claim true 1)]

theorem commands_dispatch_at_most_once_after_claim
    : (plainSystem claimRun).dispatched.length = 1 ∧ (plainSystem claimRun).dispatched.Nodup ∧
      (submitCommand plainCodec "prompt-1" (.prompt [.null])
          ((plainSystem claimRun).world.under calm)).1 = .ok (.ok (.accepted "prompt-1" 1)) := by
  have hreachable : Reachable plainCodec "session-1" (fun _ _ => True) (plainSystem claimRun) :=
    reachable_plainSystem (fun _ _ _ => trivial)
  obtain ⟨honce, -, hretry⟩ := commands_dispatch_at_most_once hreachable .refl
  have hhandled : ((plainSystem claimRun).world.relay.snapshot.handledCommands.get? "prompt-1").map
      (fun handled => (handled.command, handled.acceptedOrdinal)) = some (.prompt [.null], 1) := by
    decide +kernel
  obtain ⟨handled, hh, heq⟩ := Option.map_eq_some_iff.mp hhandled
  rw [Prod.mk.injEq] at heq
  have hanswer := (hretry "prompt-1" handled calm rfl hh).2
    (show 1 ≤ RELAY_COMMAND_BYTE_BUDGET by decide) ⟨rfl, rfl⟩ (room_plainCodec (by decide +kernel)) ?_
  . rw [heq.1, heq.2] at hanswer
    exact ⟨rfl, honce, hanswer⟩
  . intro dispatch _ hlocal
    rw [heq.1] at hlocal
    cases hlocal

theorem retried_removal_is_not_answered
    : Reachable plainCodec "session-1" (fun _ _ => True) (plainSystem removeRun) ∧
      ((plainSystem removeRun).world.relay.snapshot.handledCommands.get? "remove-1").map
          (fun handled => (handled.command, handled.acceptedOrdinal))
        = some (.removeQueuedPrompt "prompt-2", 4) ∧
      (submitCommand plainCodec "remove-1" (.removeQueuedPrompt "prompt-2")
          ((plainSystem removeRun).world.under calm)).1
        = .error "removed queue outcome does not match the durable queue" := by
  refine ⟨reachable_plainSystem (fun _ _ _ => trivial), ?_, ?_⟩
  . decide +kernel
  . decide +kernel

end Dispatch

section Queue

variable {sys : System} {s : RelaySnapshot}

structure QueueRepresents (s : RelaySnapshot) : Prop where
  nodup : (s.queuedPrompts.map (·.commandId)).Nodup
  ordered : s.queuedPrompts.Pairwise (fun a b => ∀ handled handled',
    s.handledCommands.get? a.commandId = some handled →
    s.handledCommands.get? b.commandId = some handled' →
    handled.acceptedOrdinal ≤ handled'.acceptedOrdinal)
  queued : ∀ queued ∈ s.queuedPrompts,
    s.dispatches.get? queued.commandId
      = some { command := queued.payload.command, state := .queued }
  complete : ∀ id dispatch, s.dispatches.get? id = some dispatch →
    dispatch.command.isQueueEntry → dispatch.state = .queued →
    id ∈ s.queuedPrompts.map (·.commandId)
  active_iff : ∀ id, s.activePromptId = some id ↔
    ∃ dispatch, s.dispatches.get? id = some dispatch ∧ dispatch.command.isPrompt ∧
      (dispatch.state = .pending ∨ dispatch.state = .inFlight)
  running_iff : s.execution = .running ↔ s.activePrompt.isSome
  single : ∀ id dispatch id' dispatch', s.dispatches.get? id = some dispatch →
    s.dispatches.get? id' = some dispatch' → dispatch.command.isQueueEntry →
    dispatch'.command.isQueueEntry → (dispatch.state = .pending ∨ dispatch.state = .inFlight) →
    (dispatch'.state = .pending ∨ dispatch'.state = .inFlight) → id = id'
  commands : ∀ id, (s.dispatches.get? id).map (·.command)
    = (s.handledCommands.get? id).map (·.command)
  terminal : ∀ id dispatch handled, s.dispatches.get? id = some dispatch →
    s.handledCommands.get? id = some handled →
    (handled.terminalOrdinal.isSome ↔ dispatch.state.isTerminal)

theorem phase_eq_started_iff {state : RelayDispatchState}
    : state.phase = .started ↔ state = .pending ∨ state = .inFlight := by
  cases state <;> simp [RelayDispatchState.phase]

theorem RelaySnapshot.Sound.accepted_eq (hs : s.Sound)
    (hh : s.handledCommands.get? id = some handled)
    : s.ledger.accepted id = handled.acceptedOrdinal := by
  obtain ⟨dispatch, hd, _⟩ := hs.aligned.dispatch_of_handled hh
  have he : s.ledger.entry id = some _ :=
    RelaySnapshot.ledgerEntry_eq_some.mpr ⟨dispatch, handled, hd, hh, rfl⟩
  unfold Ledger.accepted
  rw [he]
  rfl

theorem RelaySnapshot.Sound.queueRepresents (hs : s.Sound) : QueueRepresents s := by
  have hi := hs.invariant
  constructor
  . have hnodup := hi.queue_nodup
    unfold RelaySnapshot.ledger at hnodup
    rw [List.map_map] at hnodup
    exact hnodup
  . have hsorted := hi.queue_sorted
    have hqueue : s.ledger.queue
        = s.queuedPrompts.map (fun queued => (queued.commandId, queued.payload.command)) := rfl
    rw [hqueue, List.pairwise_map] at hsorted
    refine hsorted.imp ?_
    intro a b hle handled handled' hh hh'
    rw [hs.accepted_eq hh, hs.accepted_eq hh'] at hle
    exact hle
  . intro queued hmem
    have hin : (queued.commandId, queued.payload.command) ∈ s.ledger.queue :=
      List.mem_map.mpr ⟨queued, hmem, rfl⟩
    obtain ⟨_, n, he⟩ := hi.queue_sound _ hin
    obtain ⟨dispatch, hd, hcommand, hphase⟩ := RelaySnapshot.dispatch_of_entry he
    have hstate := RelayDispatchState.phase_eq_queued.mp hphase
    rw [hd, ← hstate]
    show some dispatch = some { command := queued.payload.command, state := dispatch.state }
    rw [← show dispatch.command = queued.payload.command from hcommand]
  . intro id dispatch hd hentry hstate
    obtain ⟨n, he⟩ := hs.aligned.entry_of_dispatch hd
    have hin := hi.queue_complete id _ he (RelayDispatchState.phase_eq_queued.mpr hstate) hentry
    unfold RelaySnapshot.ledger at hin
    rw [List.map_map] at hin
    exact hin
  . intro id
    constructor
    . intro hactive
      obtain ⟨e, he, hphase, hprompt⟩ := hi.active_sound id hactive
      obtain ⟨dispatch, hd, hcommand, hphase'⟩ := RelaySnapshot.dispatch_of_entry he
      refine ⟨dispatch, hd, by rw [hcommand]; exact hprompt, ?_⟩
      rw [hphase] at hphase'
      exact phase_eq_started_iff.mp hphase'
    . intro ⟨dispatch, hd, hprompt, hstate⟩
      obtain ⟨n, he⟩ := hs.aligned.entry_of_dispatch hd
      exact hi.active_complete id _ he (phase_eq_started_iff.mpr hstate) hprompt
  . have hrunning := hi.running_iff
    have hactive : s.ledger.active.isSome = s.activePrompt.isSome := Option.isSome_map ..
    rw [hactive] at hrunning
    exact hrunning
  . intro id dispatch id' dispatch' hd hd' hentry hentry' hstate hstate'
    obtain ⟨n, he⟩ := hs.aligned.entry_of_dispatch hd
    obtain ⟨n', he'⟩ := hs.aligned.entry_of_dispatch hd'
    exact hi.single id _ id' _ he he' (phase_eq_started_iff.mpr hstate)
      (phase_eq_started_iff.mpr hstate') hentry hentry'
  . exact hs.aligned.commands
  . exact hs.aligned.terminal

theorem queue_represents_commands (h : Reachable codec sessionId (fun _ _ => True) sys)
    : QueueRepresents sys.world.held ∧
      (sys.running → sys.world.relay.snapshot = sys.world.held) := by
  obtain ⟨origin, _, hsane⟩ := h.sane
  exact ⟨hsane.recoverable.valid.sound.queueRepresents,
    fun hrunning => (hsane.live hrunning).snapshot⟩

theorem queue_represents_commands_of_removal : QueueRepresents (plainSystem removeRun).world.held :=
  (queue_represents_commands (reachable_plainSystem (fun _ _ _ => trivial))).1

end Queue

/-- A relay that is sealed for close runs no prompt and takes nothing but the end of a checkpoint. -/
theorem close_is_last (h : Reachable codec sessionId (fun _ _ => True) sys) (hrunning : sys.running)
    {e : LedgerEntry} (he : sys.world.relay.snapshot.ledgerEntry id = some e)
    (hclose : e.command.isClose) (hopen : e.phase ≠ .settled)
    : sys.world.relay.snapshot.activePrompt = none ∧
      ∀ id' e', sys.world.relay.snapshot.ledgerEntry id' = some e' →
        (e'.command.isQueueEntry → e'.phase ≠ .started) ∧
        (id' ≠ id → e.accepted ≤ e'.accepted → e'.command.isCompleteCheckpoint) := by
  obtain ⟨origin, _, hsane⟩ := h.sane
  have hi := hsane.recoverable.valid.sound.invariant
  rw [(hsane.live hrunning).snapshot] at he ⊢
  have hidle := hi.close_idle id e he hclose hopen
  refine ⟨Option.map_eq_none_iff.mp (hi.active_none_of_no_started hidle), ?_⟩
  intro id' e' he'
  exact ⟨hidle id' e' he', hi.close_last id e he hclose hopen id' e' he'⟩

def closeRun : List Action :=
  barrierRun ++ [perform (.checkpointReady "barrier-1"),
    perform (.submit "closing-1" (.close "barrier-1" ⟨3, plainDigest 3⟩))]

theorem close_is_last_of_cut : (plainSystem closeRun).world.relay.snapshot.activePrompt = none := by
  have hrunning : (plainSystem closeRun).running := rfl
  have hentry : ((plainSystem closeRun).world.relay.snapshot.ledgerEntry "closing-1").map
      (fun e => (e.command.isClose, e.phase)) = some (true, .queued) := rfl
  obtain ⟨e, he, heq⟩ := Option.map_eq_some_iff.mp hentry
  rw [Prod.mk.injEq] at heq
  apply (close_is_last (reachable_plainSystem (fun _ _ _ => trivial)) hrunning he heq.1 _).1
  simp [heq.2]

/-- Every cursor that a relay keeps is a place of its own history, which only grows. -/
theorem cursors_stay_on_history (h : Reachable codec sessionId (fun _ _ => True) sys)
    (hrun : Run codec sessionId (fun _ _ => True) sys sys') (hrunning : sys'.running)
    : ∃ origin events, sys'.world.history = sys.world.history ++ events ∧
      Recorded codec origin sys'.world.history ∧
      Frontiers origin sys'.world.history sys'.world.relay.snapshot := by
  obtain ⟨origin, hguarded, hsane⟩ := h.sane
  have hallowed (sys action) (_ : True) := permits_anything hguarded sys action
  obtain ⟨hsane', hevolves⟩ := hrun.sane hallowed hsane
  obtain ⟨events, hevents⟩ := hevolves.history_eq
  have hvalid := hsane'.recoverable.valid
  rw [(hsane'.live hrunning).snapshot]
  exact ⟨origin, events, hevents, hvalid.recorded, hvalid.frontiers⟩

theorem cursors_stay_on_history_of_removal
    : ∃ origin, Frontiers origin (plainSystem removeRun).world.history
        (plainSystem removeRun).world.relay.snapshot := by
  have hrunning : (plainSystem removeRun).running := rfl
  obtain ⟨origin, _, _, _, hfrontiers⟩ :=
    cursors_stay_on_history (reachable_plainSystem (fun _ _ _ => trivial)) .refl hrunning
  exact ⟨origin, hfrontiers⟩

end Hel
