import Hel.Worker.Lemmas.Chronicle

/-!
This module contains what the transitions of a relay preserve and in which direction they move its
frontiers and its commands.
-/

namespace Hel

open RelaySnapshot

variable {codec : RelayCodec} {origin : Origin} {Accepts : RelaySnapshot → RelayCommand → Prop}
  {c c' : Chronicle}
variable {id : String} {dispatch : RelayDispatchRecord} {event : RelayEvent}
  {history : List RelayEvent} {accepted : Nat}

theorem get?_dispatches_claimCommand (s : RelaySnapshot) (id : String) (accepted : Nat)
    (command : RelayCommand) (id' : String)
    : (claimCommand s id accepted command).1.dispatches.get? id'
        = if id' = id then (s.dispatches.get? id').map ({ · with state := .inFlight })
          else s.dispatches.get? id' := by
  obtain ⟨_, _, hframe⟩ := claimCommand_frame s id accepted command
  rw [hframe]
  exact get?_dispatches_setDispatchState s id .inFlight id'

variable {s s' : RelaySnapshot} {state : RelayDispatchState}

def Stems (s s' : RelaySnapshot) : Prop :=
  ∀ id dispatch', s'.dispatches.get? id = some dispatch' →
    ∃ dispatch, s.dispatches.get? id = some dispatch ∧ dispatch'.command = dispatch.command ∧
      (dispatch.state.isTerminal → dispatch'.state.isTerminal)

theorem Stems.refl (s : RelaySnapshot) : Stems s s :=
  fun _ dispatch h => ⟨dispatch, h, rfl, fun hterminal => hterminal⟩

theorem Stems.trans {s'' : RelaySnapshot} (h : Stems s s') (h' : Stems s' s'') : Stems s s'' := by
  intro id dispatch'' hd''
  obtain ⟨dispatch', hd', hcommand', hterminal'⟩ := h' id dispatch'' hd''
  obtain ⟨dispatch, hd, hcommand, hterminal⟩ := h id dispatch' hd'
  exact ⟨dispatch, hd, hcommand'.trans hcommand, hterminal' ∘ hterminal⟩

theorem stems_setDispatchState (hd : s.dispatches.get? id = some dispatch)
    (hopen : dispatch.state.isTerminal = false) : Stems s (s.setDispatchState id state) := by
  intro id' dispatch' hd'
  rw [get?_dispatches_setDispatchState] at hd'
  split at hd'
  next heq =>
    rw [heq, hd, Option.map_some, Option.some.injEq] at hd'
    subst hd' heq
    refine ⟨dispatch, hd, rfl, ?_⟩
    intro hterminal
    rw [hopen] at hterminal
    cases hterminal
  next => exact ⟨dispatch', hd', rfl, fun hterminal => hterminal⟩

theorem stems_forgetCommand (s : RelaySnapshot) (id : String) : Stems s (forgetCommand s id) := by
  intro id' dispatch' hd'
  simp only [forgetCommand, BTreeMap.get?_remove] at hd'
  split at hd'
  . cases hd'
  . exact ⟨dispatch', hd', rfl, fun hterminal => hterminal⟩

theorem Stems.unsettled (h : Stems s s') {dispatch' : RelayDispatchRecord}
    (hd' : s'.dispatches.get? id = some dispatch') (hopen : dispatch'.state.isTerminal = false)
    : ∃ dispatch, s.dispatches.get? id = some dispatch ∧ dispatch.command = dispatch'.command ∧
        dispatch.state.isTerminal = false := by
  obtain ⟨dispatch, hd, hcommand, hterminal⟩ := h id dispatch' hd'
  refine ⟨dispatch, hd, hcommand.symm, ?_⟩
  by_contra hsettled
  rw [hterminal (by simpa using hsettled)] at hopen
  cases hopen

theorem Frontiers.congr (h : Frontiers origin history s) (hf : s'.frontier = s.frontier)
    (hl : s'.latestOrdinal = s.latestOrdinal) (hd : s'.latestDigest = s.latestDigest)
    (hstems : Stems s s') : Frontiers origin history s' := by
  obtain ⟨hack, hackd, hfloor, hfloord, hready, hreadyd⟩ := frontier_fields hf
  constructor
  . rw [hl, hd]
    exact h.latest
  . rw [hack, hackd]
    exact h.acknowledged
  . rw [hack, hl]
    exact h.acknowledged_le
  . rw [hfloor, hfloord]
    exact h.floor
  . rw [hfloor, hl]
    exact h.floor_le
  . rw [hfloor, hl]
    exact h.floor_lt
  . rw [hready, hreadyd, hl]
    exact h.ready
  . intro id dispatch' through hd' hcommand hopen
    obtain ⟨dispatch, hd, hc, hopen⟩ := hstems.unsettled hd' hopen
    rw [hl]
    exact h.advances id dispatch through hd (hc.trans hcommand) hopen

theorem Steady.congr (h : Steady s) (hf : s'.frontier = s.frontier)
    (hstems : Stems s s') : Steady s' := by
  obtain ⟨_, _, hfloor, _, hready, _⟩ := frontier_fields hf
  constructor
  . rw [hready, hfloor]
    exact h.floor
  rw [hready]
  intro cut hcut id dispatch' through hd' hcommand hopen
  obtain ⟨dispatch, hd, hc, hopen⟩ := hstems.unsettled hd' hopen
  exact h.advances cut hcut id dispatch through hd (hc.trans hcommand) hopen

theorem Chronicle.Valid.restate (hv : c.Valid codec origin) (hf : s'.frontier = c.held.frontier)
    (hl : s'.latestOrdinal = c.held.latestOrdinal) (hdigest : s'.latestDigest = c.held.latestDigest)
    (hstems : Stems c.held s') (hsound : s'.Sound) (hsteady : origin.guarded → Steady s')
    (hkept : origin.guarded → c.collected ≤ s'.retainedThrough)
    : Chronicle.Valid codec origin { c with held := s' } where
  recorded := hv.recorded
  latest_eq := hl.trans hv.latest_eq
  frontiers := hv.frontiers.congr hf hl hdigest hstems
  sound := hsound
  bounded := by
    intro id dispatch' hd'
    obtain ⟨dispatch, hd, hcommand, _⟩ := hstems id dispatch' hd'
    rw [hcommand]
    exact hv.bounded id dispatch hd
  steady := hsteady
  kept := hkept

theorem Transition.history_eq (h : Transition codec origin Accepts c c')
    : ∃ events, c'.history = c.history ++ events := by
  cases h with
  | @journal event => exact ⟨[event], rfl⟩
  | claim | acknowledge | context | forget | reclose | collect => exact ⟨[], by simp⟩

theorem Evolves.history_eq (h : Evolves codec origin Accepts c c')
    : ∃ events, c'.history = c.history ++ events := by
  induction h with
  | refl => exact ⟨[], by simp⟩
  | tail _ hstep ih =>
    obtain ⟨events, hevents⟩ := ih
    obtain ⟨events', hevents'⟩ := hstep.history_eq
    exact ⟨events ++ events', by rw [hevents', hevents, List.append_assoc]⟩

def RelaySnapshot.identity (s : RelaySnapshot) : Nat × String :=
  (s.formatVersion, s.sessionId)

theorem applyRelayEvent_keeps (h : applyRelayEvent codec s event = .ok s')
    : s'.acknowledgedThrough = s.acknowledgedThrough ∧ s'.identity = s.identity := by
  obtain ⟨_, next, hnext, rfl⟩ := applyRelayEvent_eq_ok h
  have hstep := frontierStep_applyObservation hnext
  show next.frontier.acknowledgedThrough = s.frontier.acknowledgedThrough
    ∧ next.frontier.identity = s.frontier.identity
  generalize next.frontier = f at hstep
  generalize event.observation = o at hstep
  cases hstep <;> exact ⟨rfl, rfl⟩

theorem Transition.moves_on (h : Transition codec origin Accepts c c')
    : c'.held.identity = c.held.identity ∧ c.held.latestOrdinal ≤ c'.held.latestOrdinal ∧
        c.held.acknowledgedThrough ≤ c'.held.acknowledgedThrough := by
  cases h with
  | journal _ _ _ happly =>
    obtain ⟨hack, hidentity⟩ := applyRelayEvent_keeps happly
    have hordinal := ordinal_of_applyRelayEvent happly
    refine ⟨hidentity, ?_, Nat.le_of_eq hack.symm⟩
    dsimp only
    omega
  | @claim id accepted dispatch =>
    obtain ⟨_, _, hframe⟩ := claimCommand_frame c.held id accepted dispatch.command
    rw [hframe]
    exact ⟨rfl, Nat.le_refl _, Nat.le_refl _⟩
  | acknowledge _ hlt => exact ⟨rfl, Nat.le_refl _, Nat.le_of_lt hlt⟩
  | context | forget | reclose | collect => exact ⟨rfl, Nat.le_refl _, Nat.le_refl _⟩

theorem Evolves.moves_on (h : Evolves codec origin Accepts c c')
    : c'.held.identity = c.held.identity ∧ c.held.latestOrdinal ≤ c'.held.latestOrdinal ∧
        c.held.acknowledgedThrough ≤ c'.held.acknowledgedThrough := by
  induction h with
  | refl => exact ⟨rfl, Nat.le_refl _, Nat.le_refl _⟩
  | tail _ hstep ih =>
    obtain ⟨hidentity, hlatest, hack⟩ := hstep.moves_on
    exact ⟨hidentity.trans ih.1, Nat.le_trans ih.2.1 hlatest, Nat.le_trans ih.2.2 hack⟩

theorem Steady.journal (h : Steady s)
    (hs : s.Sound) (hf : Frontiers origin history s) (hadm : s.Admissible event.observation)
    (hsafe : ∀ id command createdAtMs, event.observation = .commandQueued id command createdAtMs →
      FloorSafe s command) (happly : applyRelayEvent codec s event = .ok s')
    : Steady s' ∧ s.recoveryFloorOrdinal ≤ s'.recoveryFloorOrdinal := by
  obtain ⟨hordinal, hlatest, _⟩ := ordinal_of_applyRelayEvent happly
  obtain ⟨_, next, hnext, rfl⟩ := applyRelayEvent_eq_ok happly
  have hstep := frontierStep_applyObservation hnext
  have hprogress := progresses_applyObservation hs hadm hnext
  have hpending : ∀ id dispatch' through, next.dispatches.get? id = some dispatch' →
      dispatch'.command = .advanceRecoveryFloor through → dispatch'.state.isTerminal = false →
      (∃ createdAtMs, event.observation
        = .commandQueued id (.advanceRecoveryFloor through) createdAtMs) ∨
      ∃ dispatch, s.dispatches.get? id = some dispatch ∧
        dispatch.command = .advanceRecoveryFloor through ∧ dispatch.state.isTerminal = false := by
    intro id dispatch' through hd' hcommand hopen
    have := advance_of_progresses hprogress hd' hopen
    rw [hcommand] at this
    exact this
  have hfloor := hf.floor_le
  have hadvances := hf.advances
  suffices hcases : s.recoveryFloorOrdinal ≤ next.recoveryFloorOrdinal ∧
      ∀ cut, next.checkpointReadyThrough = some cut → next.recoveryFloorOrdinal ≤ cut ∧
        ∀ id dispatch through, next.dispatches.get? id = some dispatch →
          dispatch.command = .advanceRecoveryFloor through →
          dispatch.state.isTerminal = false → through.ordinal ≤ cut by
    exact ⟨⟨fun cut hcut => (hcases.2 cut hcut).1, fun cut hcut => (hcases.2 cut hcut).2⟩, hcases.1⟩
  generalize hfr : next.frontier = f at hstep
  generalize ho : event.observation = o at hstep hpending
  obtain ⟨_, _, hmoved, _, hcut, _⟩ := frontier_fields hfr
  rw [hmoved, hcut]
  cases hstep with
  | keep =>
    refine ⟨Nat.le_refl _, ?_⟩
    intro cut hcut
    refine ⟨h.floor cut hcut, ?_⟩
    intro id dispatch' through hd' hcommand hopen
    rcases hpending id dispatch' through hd' hcommand hopen with
      ⟨createdAtMs, hq⟩ | ⟨dispatch, hd, hc, hopen⟩
    . exact hsafe id _ createdAtMs (ho.trans hq) through cut rfl hcut
    . exact h.advances cut hcut id dispatch through hd hc hopen
  | unready => exact ⟨Nat.le_refl _, nofun⟩
  | checkpoint _ _ hn hd => exact ⟨h.floor _ hn, nofun⟩
  | @advance id dispatch through hd hcommand hle =>
    rw [ho] at hadm
    obtain ⟨dispatch', hd', hprog⟩ := hadm
    cases hd.symm.trans hd'
    have hopen := RelayDispatchState.not_isTerminal_of_inProgress hprog
    refine ⟨hle, ?_⟩
    intro cut hcut
    refine ⟨h.advances cut hcut id dispatch through hd hcommand hopen, ?_⟩
    intro id' dispatch' through' hd' hcommand' hopen'
    rcases hpending id' dispatch' through' hd' hcommand' hopen' with
      ⟨_, ⟨⟩⟩ | ⟨dispatch'', hd'', hc, hopen''⟩
    exact h.advances cut hcut id' dispatch'' through' hd'' hc hopen''
  | ready hb =>
    dsimp only [RelaySnapshot.frontier]
    refine ⟨Nat.le_refl _, ?_⟩
    intro cut hcut
    rw [Option.some.injEq] at hcut
    refine ⟨by omega, ?_⟩
    intro id' dispatch' through' hd' hcommand' hopen'
    rcases hpending id' dispatch' through' hd' hcommand' hopen' with
      ⟨_, ⟨⟩⟩ | ⟨dispatch'', hd'', hc, hopen''⟩
    have := (hadvances id' dispatch'' through' hd'' hc hopen'').1
    omega

section

variable (h : Transition codec origin Accepts c c') (hv : c.Valid codec origin)

include h hv

theorem Transition.steady
    (hguarded : origin.guarded)
    : Steady c'.held ∧ c.held.recoveryFloorOrdinal ≤ c'.held.recoveryFloorOrdinal := by
  have hsteady := hv.steady hguarded
  cases h with
  | journal _ hadm hpermitted happly =>
    apply hsteady.journal hv.sound hv.frontiers hadm _ happly
    intro id command createdAtMs ho
    rw [ho] at hpermitted
    exact hpermitted.2.1 hguarded
  | @claim id accepted dispatch hd hstate =>
    obtain ⟨_, _, hframe⟩ := claimCommand_frame c.held id accepted dispatch.command
    rw [hframe]
    exact ⟨hsteady.congr rfl (stems_setDispatchState hd (by rw [hstate]; rfl)), Nat.le_refl _⟩
  | acknowledge | context => exact ⟨⟨hsteady.floor, hsteady.advances⟩, Nat.le_refl _⟩
  | forget => exact ⟨hsteady.congr rfl (stems_forgetCommand _ _), Nat.le_refl _⟩
  | @reclose id dispatch hd hclose hstate =>
    exact ⟨hsteady.congr rfl (stems_setDispatchState hd (by rw [hstate]; rfl)), Nat.le_refl _⟩
  | collect => exact ⟨hsteady, Nat.le_refl _⟩

theorem Transition.retained_le
    (hguarded : origin.guarded) : c.held.retainedThrough ≤ c'.held.retainedThrough := by
  have hack := h.moves_on.2.2
  have hfloor := (h.steady hv hguarded).2
  unfold retainedThrough
  omega

theorem Transition.kept
    (hguarded : origin.guarded) : c'.collected ≤ c'.held.retainedThrough := by
  have hle := Nat.le_trans (hv.kept hguarded) (h.retained_le hv hguarded)
  cases h with
  | collect => exact Nat.le_refl _
  | journal | claim | acknowledge | context | forget | reclose => exact hle

theorem Transition.valid : c'.Valid codec origin := by
  have hsteady : origin.guarded → Steady c'.held := fun hguarded => (h.steady hv hguarded).1
  have hkept : origin.guarded → c'.collected ≤ c'.held.retainedThrough := h.kept hv
  cases h with
  | @journal event next hgenuine hadm hpermitted happly =>
    obtain ⟨hordinal, hlatest, _⟩ := ordinal_of_applyRelayEvent happly
    obtain ⟨_, t, ht, heq⟩ := applyRelayEvent_eq_ok happly
    have hprogress := progresses_applyObservation hv.sound hadm ht
    have hlen := hv.latest_eq
    constructor
    . exact hv.recorded.snoc hgenuine (by omega) (ordinal_le_of_applyRelayEvent happly)
    . simp only [List.length_append, List.length_singleton]
      omega
    . apply Frontiers.journal hv.sound hv.frontiers hadm _ happly
      intro id through createdAtMs ho
      rw [ho] at hpermitted
      exact hpermitted.2.2.2 through rfl
    . exact hv.sound.applyRelayEvent hadm happly
    . intro id dispatch' hd'
      have hd'' : t.dispatches.get? id = some dispatch' := by
        rw [heq] at hd'
        exact hd'
      rcases hprogress.source hd'' with ⟨createdAtMs, ho⟩ | ⟨dispatch, hold, hcommand, _⟩
      . rw [ho] at hpermitted
        exact hpermitted.2.2.1
      . rw [hcommand]
        exact hv.bounded id dispatch hold
    . exact hsteady
    . exact hkept
  | @claim id accepted dispatch hd hstate =>
    obtain ⟨_, _, hframe⟩ := claimCommand_frame c.held id accepted dispatch.command
    have hsound := hv.sound.claimCommand hd (by rw [hstate]; rfl) accepted
    rw [hframe] at hsound hsteady hkept ⊢
    exact hv.restate rfl rfl rfl (stems_setDispatchState hd (by rw [hstate]; rfl)) hsound hsteady
      hkept
  | acknowledge hchain hlt hle =>
    refine ⟨hv.recorded, hv.latest_eq, ?_, ?_, hv.bounded, hsteady, hkept⟩
    . exact { hv.frontiers with acknowledged := hchain, acknowledged_le := hle }
    . exact hv.sound.congr rfl rfl rfl rfl rfl rfl (Nat.le_refl _)
  | context context =>
    refine hv.restate rfl rfl rfl (.refl _) ?_ hsteady hkept
    exact hv.sound.congr rfl rfl rfl rfl rfl rfl (Nat.le_refl _)
  | forget hh hterminal =>
    have hsound := hv.sound.forgetCommand hh hterminal
    exact hv.restate rfl rfl rfl (stems_forgetCommand _ _) hsound hsteady hkept
  | reclose hd hclose hstate =>
    have hsound := hv.sound.setInProgress .pending hd (by rw [hstate]; rfl) rfl
    exact hv.restate rfl rfl rfl (stems_setDispatchState hd (by rw [hstate]; rfl)) hsound hsteady
      hkept
  | collect =>
    exact ⟨hv.recorded, hv.latest_eq, hv.frontiers, hv.sound, hv.bounded, hsteady, hkept⟩

end

theorem Evolves.valid (h : Evolves codec origin Accepts c c') (hv : c.Valid codec origin)
    : c'.Valid codec origin := by
  induction h with
  | refl => exact hv
  | tail _ hstep ih => exact hstep.valid ih

def RelayDispatchState.rank : RelayDispatchState → Nat
  | .queued => 0
  | .pending => 1
  | .inFlight => 2
  | .completed | .rejected | .interrupted => 3

theorem RelayDispatchState.rank_of_isTerminal : state.rank = 3 ↔ state.isTerminal := by
  cases state <;> simp [rank, isTerminal]

theorem RelayDispatchState.rank_le (state : RelayDispatchState) : state.rank ≤ 3 := by
  cases state <;> simp [rank]

/--
The command that was accepted under `id` by event `accepted` got as far as `rank` if it is still
known. A close may be handed out again, so below the last rank this says nothing about it.
-/
def Reached (rank : Nat) (s : RelaySnapshot) (id : String) (accepted : Nat) : Prop :=
  accepted ≤ s.latestOrdinal ∧
    ∀ dispatch handled, s.dispatches.get? id = some dispatch →
      s.handledCommands.get? id = some handled → handled.acceptedOrdinal = accepted →
      dispatch.command.isClose = false ∨ rank = 3 → rank ≤ dispatch.state.rank

theorem rank_le_of_stateStep {state' : RelayDispatchState}
    (h : RelaySnapshot.StateStep state state') : state.rank ≤ state'.rank := by
  rcases h with hsame | hterminal | ⟨hqueued, hpending⟩
  . rw [hsame]
  . rw [RelayDispatchState.rank_of_isTerminal.mpr hterminal]
    exact state.rank_le
  . rw [hqueued, hpending]
    simp [RelayDispatchState.rank]

/--
A command that an earlier event accepted was there before, and got no further back. A close alone may
be handed out again.
-/
def Descends (s s' : RelaySnapshot) : Prop :=
  ∀ id dispatch' handled', s'.dispatches.get? id = some dispatch' →
    s'.handledCommands.get? id = some handled' → handled'.acceptedOrdinal ≤ s.latestOrdinal →
    ∃ dispatch handled, s.dispatches.get? id = some dispatch ∧
      s.handledCommands.get? id = some handled ∧
      handled.acceptedOrdinal = handled'.acceptedOrdinal ∧ dispatch'.command = dispatch.command ∧
      (dispatch.state.rank ≤ dispatch'.state.rank ∨
        dispatch.command.isClose ∧ dispatch.state.rank < 3)

theorem Descends.trans {s s' s'' : RelaySnapshot} (h : Descends s s') (h' : Descends s' s'')
    (hle : s.latestOrdinal ≤ s'.latestOrdinal) : Descends s s'' := by
  intro id dispatch'' handled'' hd'' hh'' haccepted
  obtain ⟨dispatch', handled', hd', hh', haccepted', hcommand', hrank'⟩ :=
    h' id dispatch'' handled'' hd'' hh'' (by omega)
  obtain ⟨dispatch, handled, hd, hh, hsame, hcommand, hrank⟩ :=
    h id dispatch' handled' hd' hh' (by omega)
  refine ⟨dispatch, handled, hd, hh, by omega, by rw [hcommand', hcommand], ?_⟩
  rw [hcommand] at hrank'
  grind

theorem Reached.descends {rank : Nat} {s s' : RelaySnapshot} (h : Reached rank s id accepted)
    (hdescends : Descends s s') (hle : s.latestOrdinal ≤ s'.latestOrdinal)
    : Reached rank s' id accepted := by
  refine ⟨Nat.le_trans h.1 hle, ?_⟩
  intro dispatch' handled' hd' hh' haccepted hclose
  obtain ⟨dispatch, handled, hd, hh, hsame, hcommand, hrank⟩ :=
    hdescends id dispatch' handled' hd' hh' (haccepted ▸ h.1)
  rw [hcommand] at hclose
  have hreached := h.2 dispatch handled hd hh (by omega) hclose
  grind

theorem Transition.descends (h : Transition codec origin Accepts c c') (hv : c.Valid codec origin)
    : Descends c.held c'.held := by
  intro id dispatch' handled' hd' hh' haccepted
  cases h with
  | @journal event next hgenuine hadm hpermitted happly =>
    obtain ⟨hordinal, _, _⟩ := ordinal_of_applyRelayEvent happly
    obtain ⟨_, t, ht, rfl⟩ := applyRelayEvent_eq_ok happly
    have hprogress := progresses_applyObservation hv.sound hadm ht
    rcases hprogress.source hd' with ⟨createdAtMs, ho⟩ | ⟨dispatch, hold, hcommand, hstep⟩
    . -- A new command was accepted by this event, not by an earlier one.
      rw [ho] at ht
      cases ht
      simp only [queueCommand, BTreeMap.get?_insert, ↓reduceIte, Option.some.injEq] at hh'
      subst hh'
      dsimp only at haccepted
      omega
    obtain ⟨handled, hh, _⟩ := hv.sound.aligned.handled_of_dispatch hold
    obtain ⟨handled'', hget', hsame⟩ := hprogress.handled id handled hh
    have hh'' : t.handledCommands.get? id = some handled' := hh'
    cases hh''.symm.trans hget'
    exact ⟨dispatch, handled, hold, hh, by omega, hcommand, .inl (rank_le_of_stateStep hstep)⟩
  | @claim id' n dispatch hd hstate =>
    have hhandled : c.held.handledCommands.get? id = some handled' := by
      obtain ⟨_, _, hframe⟩ := claimCommand_frame c.held id' n dispatch.command
      rw [hframe] at hh'
      exact hh'
    rw [get?_dispatches_claimCommand] at hd'
    split at hd'
    next heq =>
      subst heq
      rw [hd, Option.map_some, Option.some.injEq] at hd'
      subst hd'
      exact ⟨dispatch, handled', hd, hhandled, rfl, rfl, by simp [hstate, RelayDispatchState.rank]⟩
    next => exact ⟨dispatch', handled', hd', hhandled, rfl, rfl, .inl (Nat.le_refl _)⟩
  | acknowledge | context | collect =>
    exact ⟨dispatch', handled', hd', hh', rfl, rfl, .inl (Nat.le_refl _)⟩
  | @forget id' =>
    simp only [forgetCommand, BTreeMap.get?_remove] at hd' hh'
    split at hd'
    . cases hd'
    next hne =>
      simp only [hne, ↓reduceIte] at hh'
      exact ⟨dispatch', handled', hd', hh', rfl, rfl, .inl (Nat.le_refl _)⟩
  | @reclose id' dispatch hd hisClose hstate =>
    rw [get?_dispatches_setDispatchState] at hd'
    split at hd'
    next heq =>
      subst heq
      rw [hd, Option.map_some, Option.some.injEq] at hd'
      subst hd'
      exact ⟨dispatch, handled', hd, hh', rfl, rfl,
        .inr ⟨hisClose, by simp [hstate, RelayDispatchState.rank]⟩⟩
    next => exact ⟨dispatch', handled', hd', hh', rfl, rfl, .inl (Nat.le_refl _)⟩

theorem Evolves.descends (h : Evolves codec origin Accepts c c') (hv : c.Valid codec origin)
    : Descends c.held c'.held := by
  induction h with
  | refl => exact fun _ dispatch handled hd hh _ => ⟨dispatch, handled, hd, hh, rfl, rfl, by simp⟩
  | tail hpath hstep ih =>
    exact ih.trans (hstep.descends (Evolves.valid hpath hv)) (Evolves.moves_on hpath).2.1

theorem Evolves.reached (h : Evolves codec origin Accepts c c') (hv : c.Valid codec origin)
    {rank : Nat} (hreached : Reached rank c.held id accepted) : Reached rank c'.held id accepted :=
  hreached.descends (h.descends hv) (Evolves.moves_on h).2.1

theorem Transition.stems (h : Transition codec origin (fun _ _ => False) c c')
    (hv : c.Valid codec origin) : Stems c.held c'.held := by
  cases h with
  | @journal event next hgenuine hadm hpermitted happly =>
    obtain ⟨_, t, ht, rfl⟩ := applyRelayEvent_eq_ok happly
    have hprogress := progresses_applyObservation hv.sound hadm ht
    intro id dispatch' hd'
    rcases hprogress.source hd' with ⟨createdAtMs, ho⟩ | ⟨dispatch, hold, hcommand, hstep⟩
    . rw [ho] at hpermitted
      exact hpermitted.1.elim
    refine ⟨dispatch, hold, hcommand, ?_⟩
    intro hterminal
    rw [← RelayDispatchState.rank_of_isTerminal] at hterminal ⊢
    have hrank := rank_le_of_stateStep hstep
    have hle := dispatch'.state.rank_le
    omega
  | @claim id accepted dispatch hd hstate =>
    obtain ⟨_, _, hframe⟩ := claimCommand_frame c.held id accepted dispatch.command
    rw [hframe]
    exact stems_setDispatchState hd (by rw [hstate]; rfl)
  | acknowledge | context => exact .refl _
  | forget => apply stems_forgetCommand
  | @reclose id dispatch hd hclose hstate =>
    exact stems_setDispatchState hd (by rw [hstate]; rfl)
  | collect => exact .refl _

theorem Evolves.stems (h : Evolves codec origin (fun _ _ => False) c c') (hv : c.Valid codec origin)
    : Stems c.held c'.held := by
  induction h with
  | refl => exact .refl _
  | tail hpath hstep ih => exact ih.trans (hstep.stems (Evolves.valid hpath hv))

theorem Transition.weaken (h : Transition codec origin (fun _ _ => False) c c')
    : Transition codec origin Accepts c c' := by
  cases h with
  | @journal event next hgenuine hadm hpermitted happly =>
    refine .journal hgenuine hadm ?_ happly
    cases ho : event.observation with
    | commandQueued id command createdAtMs =>
      rw [ho] at hpermitted
      exact hpermitted.1.elim
    | _ => trivial
  | claim hd hstate hbarrier => exact .claim hd hstate hbarrier
  | acknowledge hchain hlt hle => exact .acknowledge hchain hlt hle
  | context context => exact .context context
  | forget hh hterminal => exact .forget hh hterminal
  | reclose hd hclose hstate => exact .reclose hd hclose hstate
  | collect => exact .collect

theorem Evolves.weaken (h : Evolves codec origin (fun _ _ => False) c c')
    : Evolves codec origin Accepts c c' := by
  induction h with
  | refl => exact .refl
  | tail _ hstep ih => exact ih.tail hstep.weaken

end Hel
