import Hel.Worker.Lemmas.Submit

/-!
This module contains the specification of the claims.
-/

namespace Hel

open RelaySnapshot List

variable {codec : RelayCodec} {origin : Origin} {Accepts : RelaySnapshot → RelayCommand → Prop}
  {sessionId : String} {w w' : World}

section Select

variable {c : Chronicle} {s : RelaySnapshot} {entry : Nat × String}

def Eligible (s : RelaySnapshot) (entry : Nat × String) : Prop :=
  ∃ dispatch handled, s.dispatches.get? entry.2 = some dispatch ∧ dispatch.state = .pending ∧
    s.handledCommands.get? entry.2 = some handled ∧ handled.acceptedOrdinal = entry.1 ∧
    ∀ barrier, s.checkpointBarrier = some barrier → entry.2 = barrier

theorem eligible_of_claimable (h : entry ∈ claimable s) : Eligible s entry := by
  obtain ⟨dispatch, handled, hd, hp, hh, haccepted⟩ := mem_acceptedWhere.mp h
  simp only [Bool.and_eq_true, decide_eq_true_eq] at hp
  refine ⟨dispatch, handled, hd, hp.1, hh, haccepted, ?_⟩
  intro barrier hb
  rw [hb] at hp
  simpa using hp.2

theorem Eligible.claimCommand (h : Eligible s entry) {id : String} (hne : entry.2 ≠ id)
    (accepted : Nat) (command : RelayCommand)
    : Eligible (claimCommand s id accepted command).1 entry := by
  obtain ⟨dispatch, handled, hd, hstate, hh, haccepted, hbarrier⟩ := h
  obtain ⟨_, _, hframe⟩ := claimCommand_frame s id accepted command
  refine ⟨dispatch, handled, ?_, hstate, ?_, haccepted, ?_⟩
  . rw [get?_dispatches_claimCommand]
    simp only [hne, ↓reduceIte]
    exact hd
  . rw [hframe]
    exact hh
  . rw [hframe]
    exact hbarrier

structure Claims (codec : RelayCodec) (origin : Origin)
    (Accepts : RelaySnapshot → RelayCommand → Prop) (c : Chronicle) (selected : List (Nat × String))
    (result : RelaySnapshot × List ClaimedRelayCommand) : Prop where
  evolves : Evolves codec origin Accepts c { c with held := result.1 }
  claimed : result.2.map (fun claim => (claim.acceptedOrdinal, claim.commandId)) = selected
  commands : ∀ claim ∈ result.2, ∃ dispatch,
    c.held.dispatches.get? claim.commandId = some dispatch ∧ dispatch.command = claim.command
  marked : ∀ entry ∈ selected, ∀ dispatch, result.1.dispatches.get? entry.2 = some dispatch →
    dispatch.state = .inFlight
  others : ∀ id, id ∉ selected.map (·.2) →
    result.1.dispatches.get? id = c.held.dispatches.get? id
  latest : result.1.latestOrdinal = c.held.latestOrdinal

variable {selected : List (Nat × String)}

theorem claims_claimCommands (hnodup : (selected.map (·.2)).Nodup)
    (heligible : ∀ entry ∈ selected, Eligible c.held entry)
    : Claims codec origin Accepts c selected (claimCommands c.held selected) := by
  induction selected generalizing c with
  | nil => exact ⟨.refl, rfl, by simp [claimCommands], by simp, fun _ _ => rfl, rfl⟩
  | cons entry rest ih =>
    obtain ⟨accepted, id⟩ := entry
    obtain ⟨dispatch, handled, hd, hstate, hh, haccepted, hbarrier⟩ := heligible (accepted, id) (by simp)
    dsimp only at hd hh haccepted hbarrier
    rw [map_cons, nodup_cons] at hnodup
    have hne : ∀ entry ∈ rest, entry.2 ≠ id := by
      intro entry hmem heq
      apply hnodup.1
      rw [mem_map]
      exact ⟨entry, hmem, heq⟩
    have hstep : Transition codec origin Accepts c
        { c with held := (claimCommand c.held id accepted dispatch.command).1 } :=
      .claim hd hstate hbarrier
    have hrest := ih (c := { c with held := (claimCommand c.held id accepted dispatch.command).1 })
      hnodup.2 (fun entry hmem =>
        (heligible entry (mem_cons_of_mem _ hmem)).claimCommand (hne entry hmem) _ _)
    dsimp only at hrest
    unfold claimCommands
    simp only [hd]
    have hget := get?_dispatches_claimCommand c.held id accepted dispatch.command
    constructor
    . exact Relation.ReflTransGen.head hstep hrest.evolves
    . rw [map_cons, hrest.claimed]
      rfl
    . rw [forall_mem_cons]
      refine ⟨⟨dispatch, hd, rfl⟩, ?_⟩
      intro claim hmem
      obtain ⟨dispatch', hd', hc'⟩ := hrest.commands claim hmem
      dsimp only at hd'
      rw [hget] at hd'
      split at hd'
      next heq =>
        rw [heq, hd, Option.map_some, Option.some.injEq] at hd'
        exact ⟨dispatch, heq ▸ hd, by rw [← hc', ← hd']⟩
      next => exact ⟨dispatch', hd', hc'⟩
    . rw [forall_mem_cons]
      refine ⟨?_, hrest.marked⟩
      intro dispatch' hd'
      have hother := hrest.others id hnodup.1
      dsimp only at hd' hother
      rw [hother, hget, hd] at hd'
      simp only [↓reduceIte, Option.map_some, Option.some.injEq] at hd'
      rw [← hd']
    . intro id' hid'
      rw [map_cons, mem_cons, not_or] at hid'
      rw [hrest.others id' hid'.2]
      dsimp only
      rw [hget]
      simp only [hid'.1, ↓reduceIte]
    . rw [hrest.latest]
      obtain ⟨_, _, hframe⟩ := claimCommand_frame c.held id accepted dispatch.command
      dsimp only
      rw [hframe]
      rfl

end Select

section Start

variable {id : String}

structure StartedAll (s s' : RelaySnapshot) (ids : List String) : Prop where
  barrier : s'.checkpointBarrier = s.checkpointBarrier
  handled : s'.handledCommands = s.handledCommands
  pending : ∀ id ∈ ids, ∀ dispatch, s.dispatches.get? id = some dispatch →
    s'.dispatches.get? id = some { dispatch with state := .pending }
  others : ∀ id, id ∉ ids → s'.dispatches.get? id = s.dispatches.get? id

theorem Journaled.startedAll {e : LedgerEntry} {commandId : Option String} {startedAtMs : Int}
    {c c' : Chronicle} {event : RelayEvent} (hs : c.held.Sound)
    (h : Journaled codec commandId (.commandStarted id startedAtMs) c c' event)
    (hstart : c.held.ledger.Startable id e) (hbegin : e.command.isBeginCheckpoint = false)
    : StartedAll c.held c'.held [id] := by
  obtain ⟨next, hnext, heq⟩ := h.held_eq
  have hstarts := hs.starts hstart hnext
  rw [heq]
  constructor
  . show next.checkpointBarrier = _
    rw [hstarts.barrier, hbegin]
    rfl
  . exact hstarts.handled
  . intro id' hmem dispatch hd
    rw [mem_singleton] at hmem
    show next.dispatches.get? id' = _
    rw [hstarts.dispatches, get?_dispatches_setDispatchState, hd, hmem]
    simp
  . intro id' hmem
    rw [mem_singleton] at hmem
    show next.dispatches.get? id' = _
    rw [hstarts.dispatches, get?_dispatches_setDispatchState]
    simp only [hmem, ↓reduceIte]

theorem not_isBeginCheckpoint_of_effectful {command : RelayCommand} (h : Ledger.effectful command)
    : command.isBeginCheckpoint = false := by
  cases hb : command.isBeginCheckpoint with
  | false => rfl
  | true =>
    rw [Ledger.not_effectful_of_isBeginCheckpoint hb] at h
    cases h

theorem startQueuedControls_does (h : Live codec origin sessionId w)
    (hbarrier : w.held.checkpointBarrier = none) {ids : List String} (hnodup : ids.Nodup)
    (hwaiting : ∀ id ∈ ids, w.held.Waiting id)
    : Does codec origin Accepts sessionId False
        (fun _ w' => StartedAll w.held w'.held ids) w (startQueuedControls codec ids) := by
  induction ids generalizing w with
  | nil => exact does_pure h ⟨rfl, rfl, by simp, fun _ _ => rfl⟩
  | cons id rest ih =>
    obtain ⟨dispatch, hd, hstate, heffect, hqueue⟩ := hwaiting id (by simp)
    obtain ⟨e, hstart, hcommand⟩ :=
      h.valid.sound.startable_of_effectful hbarrier hd hstate heffect hqueue
    rw [nodup_cons] at hnodup
    unfold startQueuedControls
    refine does_bind (startQueued_does h hstart).unpromised ?_
    intro _ w₁ hadvanced ⟨startedAtMs, event, hjournaled⟩
    have hbegin : e.command.isBeginCheckpoint = false := by
      rw [hcommand]
      exact not_isBeginCheckpoint_of_effectful heffect
    have hfirst : StartedAll w.held w₁.held [id] :=
      hjournaled.startedAll h.valid.sound hstart hbegin
    have hne : ∀ other ∈ rest, other ∉ [id] := by
      intro other hmem heq
      rw [mem_singleton] at heq
      exact hnodup.1 (heq ▸ hmem)
    refine (ih hadvanced.live (hfirst.barrier.trans hbarrier) hnodup.2 ?_).mono (fun _ hfalse => hfalse)
      ?_
    . intro other hmem
      obtain ⟨dispatch', hd', hrest⟩ := hwaiting other (mem_cons_of_mem _ hmem)
      exact ⟨dispatch', (hfirst.others other (hne other hmem)).trans hd', hrest⟩
    intro _ w' _ hall
    constructor
    . exact hall.barrier.trans hfirst.barrier
    . exact hall.handled.trans hfirst.handled
    . intro other hmem dispatch' hd'
      rw [mem_cons] at hmem
      cases hmem with
      | inl heq =>
        subst heq
        rw [hall.others other hnodup.1]
        exact hfirst.pending other (by simp) dispatch' hd'
      | inr hmem =>
        exact hall.pending other hmem dispatch' ((hfirst.others other (hne other hmem)).trans hd')
    . intro other hmem
      rw [mem_cons, not_or] at hmem
      rw [hall.others other hmem.2]
      exact hfirst.others other (by simpa using hmem.1)

end Start

section Claim

-- What a claim hands out: pending commands of a state `c₁` on the way, each once.
structure HandsOut (codec : RelayCodec) (origin : Origin)
    (Accepts : RelaySnapshot → RelayCommand → Prop) (c c' : Chronicle)
    (claimed : List ClaimedRelayCommand) : Prop where
  eligible : ∃ c₁, Evolves codec origin Accepts c c₁ ∧ Evolves codec origin Accepts c₁ c' ∧
    (c.held.checkpointBarrier.isSome → c₁ = c) ∧
    ∀ claim ∈ claimed, Eligible c₁.held (claim.acceptedOrdinal, claim.commandId) ∧
      ∃ dispatch, c₁.held.dispatches.get? claim.commandId = some dispatch ∧
        dispatch.command = claim.command
  nodup : (claimed.map (·.commandId)).Nodup
  reached : ∀ claim ∈ claimed, Reached 2 c'.held claim.commandId claim.acceptedOrdinal

theorem handsOut_nil {c c' : Chronicle} (h : Evolves codec origin Accepts c c')
    : HandsOut codec origin Accepts c c' [] :=
  ⟨⟨c, .refl, h, fun _ => rfl, by simp⟩, by simp, by simp⟩

theorem HandsOut.head {c c₁ c' : Chronicle} {claimed : List ClaimedRelayCommand}
    (h : HandsOut codec origin Accepts c₁ c' claimed) (hevolves : Evolves codec origin Accepts c c₁)
    (hbarrier : c.held.checkpointBarrier.isSome → c₁ = c)
    : HandsOut codec origin Accepts c c' claimed := by
  obtain ⟨c₂, h₁, h₂, hsame, hclaims⟩ := h.eligible
  refine ⟨⟨c₂, hevolves.trans h₁, h₂, ?_, hclaims⟩, h.nodup, h.reached⟩
  intro hsome
  have heq := hbarrier hsome
  rw [heq] at hsame
  exact hsame hsome

theorem RelaySnapshot.Sound.acceptedOrdinal_le {s : RelaySnapshot} (hs : s.Sound) {id : String}
    {dispatch : RelayDispatchRecord} {handled : HandledRelayCommand}
    (hd : s.dispatches.get? id = some dispatch) (hh : s.handledCommands.get? id = some handled)
    : handled.acceptedOrdinal ≤ s.latestOrdinal := by
  have hentry : s.ledger.entry id = some
      { command := dispatch.command
        phase := dispatch.state.phase
        accepted := handled.acceptedOrdinal } := by
    show s.ledgerEntry id = _
    rw [ledgerEntry_eq_some]
    exact ⟨dispatch, handled, hd, hh, rfl⟩
  exact hs.invariant.accepted_le id _ hentry

variable (h : Live codec origin sessionId w)

include h

theorem commitClaims_does (hnodup : (selected.map (·.2)).Nodup)
    (heligible : ∀ entry ∈ selected, Eligible w.held entry)
    : Does codec origin Accepts sessionId False
        (fun _ w' => HandsOut codec origin Accepts w.chronicle w'.chronicle
          (claimCommands w.held selected).2)
        w (commitClaims codec (claimCommands w.held selected).1
          (claimCommands w.held selected).2) := by
  have hclaims : Claims codec origin Accepts w.chronicle selected (claimCommands w.held selected) :=
    claims_claimCommands hnodup heligible
  unfold commitClaims
  split
  next =>
    refine (commitSnapshot_does h hclaims.evolves).mono (fun _ hfalse => hfalse.elim) ?_
    intro _ w' _ ⟨hchronicle, _⟩
    rw [hchronicle]
    constructor
    . refine ⟨w.chronicle, .refl, hclaims.evolves, fun _ => rfl, ?_⟩
      intro claim hmem
      refine ⟨?_, hclaims.commands claim hmem⟩
      apply heligible
      rw [← hclaims.claimed, mem_map]
      exact ⟨claim, hmem, rfl⟩
    . rw [← hclaims.claimed, map_map] at hnodup
      exact hnodup
    intro claim hmem
    have hentry : (claim.acceptedOrdinal, claim.commandId) ∈ selected := by
      rw [← hclaims.claimed, mem_map]
      exact ⟨claim, hmem, rfl⟩
    obtain ⟨dispatch, handled, hd, _, hh, haccepted, _⟩ := heligible _ hentry
    constructor
    . show claim.acceptedOrdinal ≤ (claimCommands w.held selected).1.latestOrdinal
      rw [hclaims.latest]
      have hle := h.valid.sound.acceptedOrdinal_le hd hh
      rw [haccepted] at hle
      exact hle
    . intro dispatch' handled' hd' _ _ _
      rw [hclaims.marked _ hentry dispatch' hd']
      exact Nat.le_refl 2
  next hempty =>
    have hnil : (claimCommands w.held selected).2 = [] := by simpa using hempty
    rw [hnil]
    exact does_pure h (handsOut_nil .refl)

theorem admitControls_does (maximum : Nat)
    : Does codec origin Accepts sessionId False
        (fun _ w' => w.held.checkpointBarrier.isSome → w'.chronicle = w.chronicle)
        w (admitControls codec maximum) := by
  have hs : w.held.Sound := h.valid.sound
  unfold admitControls
  apply does_get_bind
  dsimp only
  rw [h.snapshot]
  cases hb : w.held.checkpointBarrier with
  | some barrier => exact does_pure h (fun _ => rfl)
  | none =>
  have hcontrols : ∀ ordinal, Does codec origin Accepts sessionId False
      (fun _ w' => (none : Option String).isSome → w'.chronicle = w.chronicle) w
      (startQueuedControls codec ((queuedControlsBefore w.held ordinal).take maximum)) := by
    intro ordinal
    refine (startQueuedControls_does h hb ?_ ?_).mono (fun _ hfalse => hfalse) ?_
    . exact (nodup_queuedControlsBefore w.held ordinal).sublist
        (take_sublist _ _)
    . intro id hmem
      exact waiting_of_queuedControlsBefore (mem_of_mem_take hmem)
    . intro _ _ _ _ hsome
      cases hsome
  dsimp only
  split
  next barrierOrdinal barrierId hnext =>
    split
    . exact hcontrols barrierOrdinal
    split
    next hidle =>
      obtain ⟨dispatch, _, hd, hp, _⟩ :=
        mem_acceptedWhere.mp (nextQueuedCheckpoint_mem hnext)
      simp only [Bool.and_eq_true, decide_eq_true_eq] at hp
      obtain ⟨e, hstart, _⟩ := hs.startable_of_beginCheckpoint hb (by simpa using hidle) hd hp.1 hp.2
      refine does_bind (startQueued_does h hstart).unpromised ?_
      intro _ w' hadvanced _
      apply does_pure hadvanced.live
      intro hsome
      cases hsome
    next =>
      apply does_pure h
      intro hsome
      cases hsome
  next => exact hcontrols U64_MAX

theorem promoteNextQueuedCommand_barrier
    : Does codec origin Accepts sessionId False
        (fun _ w' => w.held.checkpointBarrier.isSome → w'.chronicle = w.chronicle)
        w (promoteNextQueuedCommand codec) := by
  refine (promoteNextQueuedCommand_does h).mono (fun _ hfalse => hfalse.elim) ?_
  intro _ w' _ hq hsome
  rcases hq with ⟨_, hsame⟩ | ⟨id, e, _, _, hstart, hqueue, _⟩
  . exact hsame
  have hnone : w.held.checkpointBarrier = none :=
    hstart.effect (Ledger.effectful_of_isQueueEntry hqueue)
  rw [hnone] at hsome
  cases hsome

theorem claimPendingCommandsUpTo_does (acpSessionConfigured : Bool) (maximum : Nat)
    : Does codec origin Accepts sessionId False
        (fun claimed w' => HandsOut codec origin Accepts w.chronicle w'.chronicle claimed)
        w (claimPendingCommandsUpTo codec acpSessionConfigured maximum) := by
  unfold claimPendingCommandsUpTo
  split
  next => exact does_pure h (handsOut_nil .refl)
  refine does_bind (promoteNextQueuedCommand_barrier h) ?_
  intro _ w₁ hadvanced₁ hsame₁
  refine does_bind (admitControls_does hadvanced₁.live maximum) ?_
  intro _ w₂ hadvanced₂ hsame₂
  apply does_get_bind
  dsimp only
  rw [hadvanced₂.live.snapshot]
  have hselected : ((((claimable w₂.held).insertionSort (fun a b => a.1 ≤ b.1)).take maximum).map
      (·.2)).Nodup := by
    refine List.Nodup.sublist ((take_sublist _ _).map _) ?_
    refine ((perm_insertionSort _ _).map _).nodup_iff.mpr ?_
    exact nodup_acceptedWhere w₂.held _
  refine does_bind (commitClaims_does hadvanced₂.live hselected ?_) ?_
  . intro entry hmem
    apply eligible_of_claimable
    simpa using mem_of_mem_take hmem
  intro _ w₃ hadvanced₃ hhands
  apply does_pure hadvanced₃.live
  refine hhands.head (hadvanced₁.trans hadvanced₂).evolves ?_
  intro hsome
  have heq := hsame₁ hsome
  rw [← heq] at hsome
  exact (hsame₂ hsome).trans heq

theorem claimPendingUserShellCommandsUpTo_does (maximumRuns : Nat)
    : Does codec origin Accepts sessionId False
        (fun claimed w' => HandsOut codec origin Accepts w.chronicle w'.chronicle claimed ∧
          (w.held.checkpointBarrier.isSome → claimed = []))
        w (claimPendingUserShellCommandsUpTo codec maximumRuns) := by
  unfold claimPendingUserShellCommandsUpTo
  apply does_get_bind
  rw [h.snapshot]
  cases hb : w.held.checkpointBarrier with
  | some barrier => exact does_pure h ⟨handsOut_nil .refl, fun _ => rfl⟩
  | none =>
  dsimp only
  refine does_bind (startQueuedControls_does h hb (nodup_shellSelection w.held maximumRuns) ?_) ?_
  . intro id hmem
    rw [mem_map] at hmem
    obtain ⟨entry, hmem, rfl⟩ := hmem
    exact waiting_of_shellSelection hmem
  intro _ w₁ hadvanced hstarted
  apply does_get_bind
  rw [hadvanced.live.snapshot]
  refine does_bind (commitClaims_does hadvanced.live
    (nodup_shellSelection w.held maximumRuns) ?_) ?_
  . -- What was selected is pending now.
    intro entry hmem
    obtain ⟨dispatch, handled, hd, _, _, hh, haccepted⟩ := mem_shellSelection hmem
    have hpending := hstarted.pending entry.2 (mem_map_of_mem hmem) dispatch hd
    refine ⟨_, handled, hpending, rfl, ?_, haccepted, ?_⟩
    . rw [hstarted.handled]
      exact hh
    intro barrier hb'
    rw [hstarted.barrier, hb] at hb'
    cases hb'
  . intro _ w₂ hadvanced₂ hhands
    apply does_pure hadvanced₂.live
    refine ⟨hhands.head hadvanced.evolves ?_, ?_⟩
    . intro hsome
      have hb' : w.chronicle.held.checkpointBarrier = none := hb
      rw [hb'] at hsome
      cases hsome
    . intro hsome
      cases hsome

end Claim

end Hel
